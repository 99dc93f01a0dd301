import Mathlib.Logic.Basic

/-!
# Client programs over requests

A `Program` issues requests to a server one at a time and continues on each answer; it ends with a
value or by raising an error. `eval` runs a program against a handler that threads a session and
never lets anyone else in between. `wp` is the weakest precondition calculus of such programs when
the answers are only known to satisfy a relation: `pre` must hold wherever a request is issued, and
`post` wherever the program returns.
-/

namespace Transactional

inductive Program (Req : Type) (Resp : Req → Type) (ε α : Type) where
  | pure (a : α)
  | raise (e : ε)
  | call (q : Req) (next : Resp q → Program Req Resp ε α)

namespace Program

variable {Req : Type} {Resp : Req → Type} {ε α β π : Type}

def bind : Program Req Resp ε α → (α → Program Req Resp ε β) → Program Req Resp ε β
  | .pure a, f => f a
  | .raise e, _ => .raise e
  | .call q next, f => .call q fun r => bind (next r) f

instance : Monad (Program Req Resp ε) where
  pure := .pure
  bind := bind

def request (q : Req) : Program Req Resp ε (Resp q) := .call q .pure

def ofOption (e : ε) : Option α → Program Req Resp ε α
  | some a => .pure a
  | none => .raise e

@[simp] theorem pure_eq (a : α) : (Pure.pure a : Program Req Resp ε α) = .pure a := rfl

@[simp] theorem bind_eq (p : Program Req Resp ε α) (f : α → Program Req Resp ε β) :
    (p >>= f) = p.bind f := rfl

@[simp] theorem pure_bind (a : α) (f : α → Program Req Resp ε β) : (Program.pure a).bind f = f a :=
  rfl

@[simp] theorem raise_bind (e : ε) (f : α → Program Req Resp ε β) :
    (Program.raise e : Program Req Resp ε α).bind f = .raise e := rfl

@[simp] theorem call_bind (q : Req) (next : Resp q → Program Req Resp ε α)
    (f : α → Program Req Resp ε β) :
    (Program.call q next).bind f = .call q fun r => (next r).bind f := rfl

@[simp] theorem request_bind (q : Req) (f : Resp q → Program Req Resp ε β) :
    (request q).bind f = .call q f := rfl

/-- Uninterrupted execution; the session reached is kept when the program fails as well. -/
def eval (handler : (q : Req) → π → Except ε (Resp q) × π) :
    Program Req Resp ε α → π → Except ε α × π
  | .pure a, s => (.ok a, s)
  | .raise e, s => (.error e, s)
  | .call q next, s =>
    match handler q s with
    | (.ok r, s') => eval handler (next r) s'
    | (.error e, s') => (.error e, s')

theorem eval_call_ok {handler : (q : Req) → π → Except ε (Resp q) × π} {q : Req} {s s' : π}
    {r : Resp q} (h : handler q s = (.ok r, s')) (next : Resp q → Program Req Resp ε α) :
    eval handler (.call q next) s = eval handler (next r) s' := by simp only [eval, h]

theorem eval_call_error {handler : (q : Req) → π → Except ε (Resp q) × π} {q : Req} {s s' : π}
    {e : ε} (h : handler q s = (.error e, s')) (next : Resp q → Program Req Resp ε α) :
    eval handler (.call q next) s = (.error e, s') := by simp only [eval, h]

theorem eval_bind (handler : (q : Req) → π → Except ε (Resp q) × π) (p : Program Req Resp ε α)
    (f : α → Program Req Resp ε β) (s : π) :
    eval handler (p.bind f) s =
      match eval handler p s with
      | (.ok a, s') => eval handler (f a) s'
      | (.error e, s') => (.error e, s') := by
  induction p generalizing s with
  | pure a => rfl
  | raise e => rfl
  | call q next ih =>
      simp only [call_bind, eval]
      match h : handler q s with
      | (.ok r, s') => exact ih r s'
      | (.error e, s') => rfl

section Requests

/-- Some answers lead the program to the request. -/
def Issues (q : Req) : Program Req Resp ε α → Prop
  | .pure _ => False
  | .raise _ => False
  | .call q' next => q = q' ∨ ∃ r, Issues q (next r)

/-- Whatever the answers are, each request satisfies the condition. -/
def IssuesOnly (P : Req → Prop) (p : Program Req Resp ε α) : Prop := ∀ q, p.Issues q → P q

variable {P : Req → Prop}

theorem issuesOnly_mono {P' : Req → Prop} (h : ∀ q, P q → P' q) {p : Program Req Resp ε α}
    (hp : p.IssuesOnly P) : p.IssuesOnly P' := fun q hq => h q (hp q hq)

theorem issuesOnly_pure (a : α) : IssuesOnly P (.pure a : Program Req Resp ε α) :=
  fun _ h => h.elim

theorem issuesOnly_raise (e : ε) : IssuesOnly P (.raise e : Program Req Resp ε α) :=
  fun _ h => h.elim

theorem issuesOnly_call {q : Req} {next : Resp q → Program Req Resp ε α} (hq : P q)
    (hnext : ∀ r, (next r).IssuesOnly P) : (Program.call q next).IssuesOnly P := by
  rintro q' (rfl | ⟨r, hr⟩)
  · exact hq
  · exact hnext r q' hr

theorem issuesOnly_bind {p : Program Req Resp ε α} {f : α → Program Req Resp ε β}
    (hp : p.IssuesOnly P) (hf : ∀ a, (f a).IssuesOnly P) : (p.bind f).IssuesOnly P := by
  induction p with
  | pure a => exact hf a
  | raise e => exact issuesOnly_raise e
  | call q next ih =>
      refine issuesOnly_call (hp q (.inl rfl)) fun r => ih r fun q' hq' => ?_
      exact hp q' (.inr ⟨r, hq'⟩)

end Requests

section WeakestPrecondition

variable (answers : (q : Req) → π → Resp q → π → Prop) (pre : (q : Req) → π → Prop)

def wp (post : α → π → Prop) : Program Req Resp ε α → π → Prop
  | .pure a, s => post a s
  | .raise _, _ => True
  | .call q next, s => pre q s ∧ ∀ r s', answers q s r s' → wp post (next r) s'

variable {answers pre}

theorem wp_mono {post post' : α → π → Prop} (h : ∀ a s, post a s → post' a s)
    {p : Program Req Resp ε α} {s : π} (hp : wp answers pre post p s) :
    wp answers pre post' p s := by
  induction p generalizing s with
  | pure a => exact h a s hp
  | raise e => trivial
  | call q next ih => exact ⟨hp.1, fun r s' hr => ih r (hp.2 r s' hr)⟩

theorem wp_bind {post : β → π → Prop} {p : Program Req Resp ε α}
    {f : α → Program Req Resp ε β} {s : π} :
    wp answers pre post (p.bind f) s ↔
      wp answers pre (fun a s' => wp answers pre post (f a) s') p s := by
  induction p generalizing s with
  | pure a => exact Iff.rfl
  | raise e => exact Iff.rfl
  | call q next ih =>
      exact and_congr Iff.rfl (forall_congr' fun r => forall_congr' fun s' =>
        imp_congr Iff.rfl (ih r))

/-- What every request the program issues preserves holds in the end. -/
theorem wp_of_issuesOnly {P : Req → Prop} {I : π → Prop}
    (hI : ∀ q s r s', P q → answers q s r s' → I s → I s') {p : Program Req Resp ε α} {s : π}
    (hp : p.IssuesOnly P) (hs : I s) : wp answers (fun _ _ => True) (fun _ => I) p s := by
  induction p generalizing s with
  | pure a => exact hs
  | raise e => trivial
  | call q next ih =>
      refine ⟨trivial, fun r s' hr => ih r (fun q' hq' => hp q' (.inr ⟨r, hq'⟩)) ?_⟩
      exact hI q s r s' (hp q (.inl rfl)) hr hs

/-- A handler that answers within the relation ends a verified program in its postcondition. `view`
is the part of the handler's state that the conditions are about. -/
theorem wp_eval {ρ : Type} {handler : (q : Req) → ρ → Except ε (Resp q) × ρ} (view : ρ → π)
    (hh : ∀ q s r s', handler q s = (.ok r, s') → answers q (view s) r (view s'))
    {post : α → π → Prop} {p : Program Req Resp ε α} {s s' : ρ} {a : α}
    (hp : wp answers pre post p (view s)) (he : eval handler p s = (.ok a, s')) :
    post a (view s') := by
  induction p generalizing s with
  | pure b =>
      obtain ⟨hb, rfl⟩ := Prod.mk.inj he
      exact Except.ok.inj hb ▸ hp
  | raise e => cases (Prod.mk.inj he).1
  | call q next ih =>
      match h : handler q s with
      | (.ok r, s₁) =>
          rw [eval_call_ok h] at he
          exact ih r (hp.2 r (view s₁) (hh q s r s₁ h)) he
      | (.error e, s₁) =>
          rw [eval_call_error h] at he
          cases (Prod.mk.inj he).1

/-- A program that keeps nothing when it raises. -/
def transact (handler : (q : Req) → π → Except ε (Resp q) × π) (p : Program Req Resp ε α) (s : π) :
    Except ε α × π :=
  match p.eval handler s with
  | (.ok a, s') => (.ok a, s')
  | (.error e, _) => (.error e, s)

/-- What a program does whenever its handler answers. -/
def Ensures (handler : (q : Req) → π → Except ε (Resp q) × π) (post : α → π → Prop)
    (p : Program Req Resp ε α) (s : π) : Prop :=
  p.wp (fun q s r s' => handler q s = (.ok r, s')) (fun _ _ => True) post s

theorem transact_cases {handler : (q : Req) → π → Except ε (Resp q) × π} {post : α → π → Prop}
    {p : Program Req Resp ε α} {s : π} (h : p.Ensures handler post s) :
    (∃ e, p.transact handler s = (.error e, s)) ∨
      ∃ a s', p.transact handler s = (.ok a, s') ∧ post a s' := by
  unfold transact
  match he : p.eval handler s with
  | (.error e, s') => exact .inl ⟨e, rfl⟩
  | (.ok a, s') =>
      refine .inr ⟨a, s', rfl, ?_⟩
      exact wp_eval id (fun _ _ _ _ hr => hr) h he

end WeakestPrecondition

end Program

end Transactional
