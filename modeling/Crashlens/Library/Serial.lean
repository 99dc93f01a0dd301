import Crashlens.Library.ReadCommitted

/-!
# Transactions one after the other

`Runs` is the big-step meaning of a program whose transaction has the database to itself: from its
pending writes and the committed state to an outcome and to those it ends with. It composes along
`bind`, and `Store.serial` is a whole transaction of it. `replay` runs a list of operations in turn;
removing the operations that an earlier one has made void does not change where it ends.
-/

namespace Transactional

section BigStep

variable {κ σ δ ε : Type} {Req : Type} {Resp : Req → Type} {α β : Type}

inductive Runs (S : Store κ σ δ ε Req Resp) (now : κ) :
    Program Req Resp ε α → δ → σ → Except ε α → δ → σ → Prop where
  | pure (a : α) (d : δ) (c : σ) : Runs S now (.pure a) d c (.ok a) d c
  | raise (e : ε) (d : δ) (c : σ) : Runs S now (.raise e) d c (.error e) d c
  | answer {q : Req} {next : Resp q → Program Req Resp ε α} {r : Resp q} {d d₁ d' : δ}
      {c c₁ c' : σ} {out : Except ε α} (h : S.exec now c c d q = .ok (r, d₁, c₁))
      (hnext : Runs S now (next r) d₁ c₁ out d' c') : Runs S now (.call q next) d c out d' c'
  | reject {q : Req} {next : Resp q → Program Req Resp ε α} {d : δ} {c : σ} {e : ε}
      (h : S.exec now c c d q = .error e) : Runs S now (.call q next) d c (.error e) d c

variable {S : Store κ σ δ ε Req Resp} {now : κ} {d d₁ d' : δ} {c c₁ c' : σ}

namespace Runs

theorem request {q : Req} {r : Resp q} (h : S.exec now c c d q = .ok (r, d', c')) :
    Runs S now (Program.request q) d c (.ok r) d' c' := .answer h (.pure r d' c')

theorem ofOption_some {e : ε} {x : Option α} {a : α} (h : x = some a) (d : δ) (c : σ) :
    Runs S now (.ofOption e x) d c (.ok a) d c := by
  subst h
  exact .pure a d c

theorem bind {p : Program Req Resp ε α} {f : α → Program Req Resp ε β} {a : α}
    {out : Except ε β} (hp : Runs S now p d c (.ok a) d₁ c₁)
    (hf : Runs S now (f a) d₁ c₁ out d' c') : Runs S now (p.bind f) d c out d' c' := by
  generalize hout : (Except.ok a : Except ε α) = o at hp
  induction hp with
  | pure b d c =>
      cases hout
      exact hf
  | raise e d c => cases hout
  | answer h _ ih => exact .answer h (ih hf hout)
  | reject h => cases hout

/-- An error leaves the rest of the program undone. -/
theorem bind_error {p : Program Req Resp ε α} {f : α → Program Req Resp ε β} {e : ε}
    (hp : Runs S now p d c (.error e) d' c') : Runs S now (p.bind f) d c (.error e) d' c' := by
  generalize hout : (Except.error e : Except ε α) = o at hp
  induction hp with
  | pure b d c => cases hout
  | raise e' d c =>
      cases hout
      exact .raise ..
  | answer h _ ih => exact .answer h (ih hout)
  | reject h =>
      cases hout
      exact .reject h

theorem map {p : Program Req Resp ε α} {out : Except ε α} (h : Runs S now p d c out d' c')
    (f : α → β) : Runs S now (p.bind fun a => .pure (f a)) d c (out.map f) d' c' := by
  induction h with
  | pure a d c => exact .pure ..
  | raise e d c => exact .raise ..
  | answer h _ ih => exact .answer h ih
  | reject h => exact .reject h

theorem eval {p : Program Req Resp ε α} {out : Except ε α} (h : Runs S now p d c out d' c')
    (s : Session κ δ Req Resp) (hnow : s.now = now) (hs : s.writes = d) :
    ∃ s', s'.writes = d' ∧ p.eval S.handler (s, c) = (out, (s', c')) := by
  induction h generalizing s with
  | pure a d c => exact ⟨s, hs, rfl⟩
  | raise e d c => exact ⟨s, hs, rfl⟩
  | answer h _ ih =>
      subst hnow hs
      obtain ⟨s', hs', he⟩ := ih (s.after _ _ _) rfl rfl
      refine ⟨s', hs', ?_⟩
      rw [Program.eval_call_ok (by simp only [Store.handler, h]; rfl), he]
  | reject h =>
      subst hnow hs
      refine ⟨s, rfl, ?_⟩
      rw [Program.eval_call_error (by simp only [Store.handler, h]; rfl)]

theorem serial_ok {p : Program Req Resp ε α} {a : α}
    (h : Runs S now p S.noWrites c (.ok a) d' c') : S.serial p now c = (.ok a, S.merge d' c') := by
  obtain ⟨s', rfl, he⟩ := h.eval (S.init now) rfl rfl
  simp only [Store.serial, he]

theorem serial_error {p : Program Req Resp ε α} {e : ε}
    (h : Runs S now p S.noWrites c (.error e) d' c') : S.serial p now c = (.error e, c') := by
  obtain ⟨s', -, he⟩ := h.eval (S.init now) rfl rfl
  simp only [Store.serial, he]

end Runs

namespace Store

/-- The state a transaction on its own commits to, and the session it commits. -/
theorem serial_ok_cases {p : Program Req Resp ε α} {a : α} (h : S.serial p now c = (.ok a, c')) :
    ∃ s c₁, p.eval S.handler (S.init now, c) = (.ok a, (s, c₁)) ∧ c' = S.merge s.writes c₁ := by
  unfold Store.serial at h
  split at h
  · next b s c₁ he =>
      cases h
      exact ⟨s, c₁, he, rfl⟩
  · cases h

theorem serial_error_cases {p : Program Req Resp ε α} {e : ε}
    (h : S.serial p now c = (.error e, c')) :
    ∃ s, p.eval S.handler (S.init now, c) = (.error e, (s, c')) := by
  unfold Store.serial at h
  split at h
  · cases h
  · next e' s c₁ he =>
      cases h
      exact ⟨s, he⟩

/-- A transaction that only renames its result. -/
theorem serial_map (S : Store κ σ δ ε Req Resp) (p : Program Req Resp ε α) (f : α → β) (now : κ)
    (c : σ) : S.serial (p.bind fun a => .pure (f a)) now c =
      ((S.serial p now c).1.map f, (S.serial p now c).2) := by
  rw [Store.serial, Store.serial, Program.eval_bind]
  match p.eval S.handler (S.init now, c) with
  | (.ok a, (s, c')) => rfl
  | (.error e, (s, c')) => rfl

theorem handler_answers {q : Req} {s s' : Session κ δ Req Resp × σ} {r : Resp q}
    (h : S.handler q s = (.ok r, s')) : S.Answers q s.1 r s'.1 := by
  unfold Store.handler at h
  split at h
  · next r' d c₁ he =>
      cases h
      exact ⟨s.2, s.2, d, c₁, he, rfl⟩
  · cases h

/-- A verified transaction on its own ends in its postcondition. -/
theorem serial_post {pre : (q : Req) → Session κ δ Req Resp → Prop}
    {post : α → Session κ δ Req Resp → Prop} {p : Program Req Resp ε α} {a : α}
    (hp : p.wp S.Answers pre post (S.init now)) (h : S.serial p now c = (.ok a, c')) :
    ∃ s c₁, post a s ∧ p.eval S.handler (S.init now, c) = (.ok a, (s, c₁)) ∧
      c' = S.merge s.writes c₁ := by
  obtain ⟨s, c₁, he, hc⟩ := serial_ok_cases h
  exact ⟨s, c₁, Program.wp_eval Prod.fst (fun _ _ _ _ => handler_answers) hp he, he, hc⟩

/-- What every statement preserves of the committed state, the statements of a transaction do. -/
theorem eval_invariant {I : σ → Prop} {p : Program Req Resp ε α} {s s' : Session κ δ Req Resp}
    {out : Except ε α}
    (hexec : ∀ (s : Session κ δ Req Resp) q r d c c',
      S.exec s.now c c s.writes q = .ok (r, d, c') → I c → I c')
    (h : p.eval S.handler (s, c) = (out, (s', c'))) (hc : I c) : I c' := by
  induction p generalizing s c with
  | pure b =>
      cases h
      exact hc
  | raise e =>
      cases h
      exact hc
  | call q next ih =>
      cases hq : S.exec s.now c c s.writes q with
      | ok out =>
          obtain ⟨r, d, c₁⟩ := out
          rw [Program.eval_call_ok (by simp only [Store.handler, hq]; rfl)] at h
          exact ih r h (hexec s q r d c c₁ hq hc)
      | error e =>
          rw [Program.eval_call_error (by simp only [Store.handler, hq]; rfl)] at h
          cases h
          exact hc

end Store

end BigStep

section Replay

variable {σ α κ : Type} (step : σ → α → σ)

def replay (s : σ) (ops : List α) : σ := ops.foldl step s

@[simp] theorem replay_nil (s : σ) : replay step s [] = s := rfl

@[simp] theorem replay_cons (s : σ) (a : α) (ops : List α) :
    replay step s (a :: ops) = replay step (step s a) ops := rfl

@[simp] theorem replay_append (s : σ) (ops ops' : List α) :
    replay step s (ops ++ ops') = replay step (replay step s ops) ops' := List.foldl_append

variable {step}

theorem replay_invariant {I : σ → Prop} {s : σ} {ops : List α}
    (hstep : ∀ s, ∀ a ∈ ops, I s → I (step s a)) (hs : I s) : I (replay step s ops) := by
  induction ops generalizing s with
  | nil => exact hs
  | cons a ops ih =>
      exact ih (fun s b hb => hstep s b (List.mem_cons_of_mem a hb))
        (hstep s a (List.mem_cons_self ..) hs)

variable (step) [DecidableEq κ] (key : α → Option κ) (stores : σ → α → Bool)

/-- The operations left when those go whose key an earlier one, or `kept`, has stored. -/
def withoutRepeats : List κ → σ → List α → List α
  | _, _, [] => []
  | kept, s, a :: ops =>
    if ∃ k ∈ kept, key a = some k then withoutRepeats kept (step s a) ops
    else a :: withoutRepeats (if stores s a then (key a).toList ++ kept else kept) (step s a) ops

variable {step key stores}

/-- When a stored key stays stored and makes every further operation on it void, the repeats can
go. -/
theorem replay_withoutRepeats {Stored : σ → κ → Prop}
    (hstays : ∀ s a k, Stored s k → Stored (step s a) k)
    (hstores : ∀ s a k, stores s a = true → key a = some k → Stored (step s a) k)
    (hvoid : ∀ s a k, Stored s k → key a = some k → step s a = s)
    {kept : List κ} {s : σ} (hkept : ∀ k ∈ kept, Stored s k) (ops : List α) :
    replay step s (withoutRepeats step key stores kept s ops) = replay step s ops := by
  induction ops generalizing kept s with
  | nil => rfl
  | cons a ops ih =>
      have hkeep : ∀ k ∈ kept, Stored (step s a) k := fun k hk => hstays s a k (hkept k hk)
      by_cases hrep : ∃ k ∈ kept, key a = some k
      · obtain ⟨k, hk, hkey⟩ := hrep
        have hs : step s a = s := hvoid s a k (hkept k hk) hkey
        rw [withoutRepeats, if_pos ⟨k, hk, hkey⟩, replay_cons, hs]
        exact ih hkept
      · rw [withoutRepeats, if_neg hrep, replay_cons, replay_cons]
        apply ih
        intro k hk
        split_ifs at hk with hst
        · rw [List.mem_append, Option.mem_toList] at hk
          obtain hk | hk := hk
          · exact hstores s a k hst hk
          · exact hkeep k hk
        · exact hkeep k hk

end Replay

end Transactional
