import Crashlens.Library.Transition
import Mathlib.Logic.Function.Basic

/-!
# Strands that start from one another

Strands of execution interleave in any order. Each has a value of its own, which only its own
actions change; a new strand starts from the value another one has at that moment, or from the
beginning. What the strands share is the world, and it takes its turns. The lineage of a strand is
what it has been through itself, and what its ancestors had been through when it was started.
-/

namespace Strands

open Transactional

variable {κ α ω W V σ : Type} [DecidableEq κ]

inductive Step (κ α ω : Type) where
  | act (k : κ) (a : α)
  | fork (parent child : κ)
  | fresh (child : κ)
  | world (w : ω)
deriving DecidableEq

inductive Moment (α ω : Type) where
  | own (a : α)
  | forked
  | fresh
  | world (w : ω)
deriving DecidableEq

/-- How a strand's value changes in its actions and when another strand starts from it. -/
structure Machine (α ω W V : Type) where
  initial : V
  apply : W → V → α → V
  fork : W → V → V
  turn : W → ω → W

structure State (κ W V : Type) where
  world : W
  value : κ → Option V

variable (m : Machine α ω W V)

def start (root : κ) (w : W) : State κ W V :=
  ⟨w, fun k => if k = root then some m.initial else none⟩

def step (s : State κ W V) : Step κ α ω → Option (State κ W V)
  | .act k a => (s.value k).map fun v =>
    { s with value := Function.update s.value k (some (m.apply s.world v a)) }
  | .fork parent child =>
    match s.value parent, s.value child with
    | some v, none =>
      some { s with value := Function.update s.value child (some (m.fork s.world v)) }
    | _, _ => none
  | .fresh child =>
    match s.value child with
    | none => some { s with value := Function.update s.value child (some m.initial) }
    | some _ => none
  | .world w => some { s with world := m.turn s.world w }

/-- What a strand has been through, of steps and moments the latest first. -/
def lineage : List (Step κ α ω) → κ → List (Moment α ω)
  | [], _ => []
  | .act k' a :: earlier, k => if k' = k then .own a :: lineage earlier k else lineage earlier k
  | .fork parent child :: earlier, k =>
    if child = k then .forked :: lineage earlier parent else lineage earlier k
  | .fresh child :: earlier, k =>
    if child = k then .fresh :: lineage earlier k else lineage earlier k
  | .world w :: earlier, k => .world w :: lineage earlier k

/-- The world and the value after what a strand has been through. -/
def replay (w : W) : List (Moment α ω) → W × V
  | [] => (w, m.initial)
  | .own a :: earlier =>
    ((replay w earlier).1, m.apply (replay w earlier).1 (replay w earlier).2 a)
  | .forked :: earlier => ((replay w earlier).1, m.fork (replay w earlier).1 (replay w earlier).2)
  | .fresh :: earlier => ((replay w earlier).1, m.initial)
  | .world w' :: earlier => (m.turn (replay w earlier).1 w', (replay w earlier).2)

/-- The state is what the lineages say of it. -/
def Follows (w : W) (steps : List (Step κ α ω)) (s : State κ W V) : Prop :=
  ∀ k, (replay m w (lineage steps k)).1 = s.world ∧
    ∀ v, s.value k = some v → (replay m w (lineage steps k)).2 = v

variable {m}

theorem follows_start (root : κ) (w : W) :
    Follows m w ([] : List (Step κ α ω)) (start m root w) := by
  refine fun k => ⟨rfl, fun v hv => ?_⟩
  rw [start] at hv
  dsimp only at hv
  split_ifs at hv
  exact Option.some.inj hv

/-- An updated value is the one of the strand that was updated, or an old one. -/
theorem update_some {value : κ → Option V} {j k : κ} {v v' : V}
    (h : Function.update value j (some v') k = some v) :
    j = k ∧ v = v' ∨ j ≠ k ∧ value k = some v := by
  by_cases hjk : j = k
  · subst hjk
    rw [Function.update_self] at h
    exact .inl ⟨rfl, (Option.some.inj h).symm⟩
  · rw [Function.update_of_ne (Ne.symm hjk)] at h
    exact .inr ⟨hjk, h⟩

/-- A step adds to the lineages what it does to the values. -/
theorem follows_step {w : W} {steps : List (Step κ α ω)} {s s' : State κ W V} {st : Step κ α ω}
    (hs : Follows m w steps s) (h : step m s st = some s') : Follows m w (st :: steps) s' := by
  cases st with
  | act j a =>
      obtain ⟨u, hu, rfl⟩ := Option.map_eq_some_iff.mp h
      refine fun k => ⟨?_, fun v hv => ?_⟩
      · rw [lineage]
        split_ifs
        · exact (hs k).1
        · exact (hs k).1
      · obtain ⟨rfl, rfl⟩ | ⟨hjk, hold⟩ := update_some hv
        · rw [lineage, if_pos rfl, replay, (hs j).1, (hs j).2 u hu]
        · rw [lineage, if_neg hjk]
          exact (hs k).2 v hold
  | fork parent child =>
      rw [step] at h
      split at h
      · next u hu _ =>
          cases h
          refine fun k => ⟨?_, fun v hv => ?_⟩
          · rw [lineage]
            split_ifs
            · exact (hs parent).1
            · exact (hs k).1
          · obtain ⟨rfl, rfl⟩ | ⟨hjk, hold⟩ := update_some hv
            · rw [lineage, if_pos rfl, replay, (hs parent).1, (hs parent).2 u hu]
            · rw [lineage, if_neg hjk]
              exact (hs k).2 v hold
      · cases h
  | fresh child =>
      rw [step] at h
      split at h
      · cases h
        refine fun k => ⟨?_, fun v hv => ?_⟩
        · rw [lineage]
          split_ifs
          · exact (hs k).1
          · exact (hs k).1
        · obtain ⟨rfl, rfl⟩ | ⟨hjk, hold⟩ := update_some hv
          · rw [lineage, if_pos rfl, replay]
          · rw [lineage, if_neg hjk]
            exact (hs k).2 v hold
      · cases h
  | world w' =>
      cases h
      refine fun k => ⟨?_, fun v hv => ?_⟩
      · rw [lineage, replay, (hs k).1]
      · rw [lineage, replay]
        exact (hs k).2 v hv

theorem follows_run {w : W} {earlier steps : List (Step κ α ω)} {s s' : State κ W V}
    (hs : Follows m w earlier s) (h : run (step m) s steps = some s') :
    Follows m w (steps.reverse ++ earlier) s' := by
  induction steps generalizing earlier s with
  | nil =>
      cases h
      exact hs
  | cons st steps ih =>
      obtain ⟨s₁, h₁, h₂⟩ := run_cons_eq_some h
      have hfollows := ih (follows_step hs h₁) h₂
      rwa [List.reverse_cons, List.append_assoc, List.singleton_append]

/-- Whatever the others do in between, a strand has the value of its lineage. -/
theorem value_of_lineage {root : κ} {w : W} {steps : List (Step κ α ω)} {s : State κ W V}
    (h : run (step m) (start m root w) steps = some s) {k : κ} {v : V} (hv : s.value k = some v) :
    replay m w (lineage steps.reverse k) = (s.world, v) := by
  have hfollows := follows_run (follows_start root w) h
  rw [List.append_nil] at hfollows
  exact Prod.ext (hfollows k).1 ((hfollows k).2 v hv)

/-! ## Implementations -/

section Implementation

variable {impl : σ → Step κ α ω → Option σ} {R : σ → State κ W V → Prop}

/-- Each step of the implementation is the step of the strands it names. -/
def Implements (m : Machine α ω W V) (impl : σ → Step κ α ω → Option σ)
    (R : σ → State κ W V → Prop) : Prop :=
  ∀ c s st c', R c s → impl c st = some c' → ∃ s', step m s st = some s' ∧ R c' s'

theorem Implements.run (h : Implements m impl R) {c c' : σ} {s : State κ W V}
    {steps : List (Step κ α ω)} (hR : R c s) (hrun : Transactional.run impl c steps = some c') :
    ∃ s', Transactional.run (step m) s steps = some s' ∧ R c' s' := by
  induction steps generalizing c s with
  | nil =>
      cases hrun
      exact ⟨s, rfl, hR⟩
  | cons st steps ih =>
      obtain ⟨c₁, h₁, h₂⟩ := run_cons_eq_some hrun
      obtain ⟨s₁, hs₁, hR₁⟩ := h c s st c₁ hR h₁
      obtain ⟨s', hs', hR'⟩ := ih hR₁ h₂
      exact ⟨s', by rw [run_cons_of_step hs₁, hs'], hR'⟩

end Implementation

end Strands
