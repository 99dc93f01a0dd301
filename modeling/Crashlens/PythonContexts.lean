import Crashlens.Library.Strands
import Crashlens.NormalizeRules
import Crashlens.PythonEvents

/-!
# Contexts of the Python SDK

`_scope.py` keeps breadcrumbs, tags and user in context variables. A task runs in a copy of the
context it was started from, and the copy refers to the same containers; a thread starts with an
empty context. No call writes into a container: each binds its variable to a new one, so that what
another context still refers to stays as it is.
-/

namespace Crashlens.Python

open Strands Transactional

variable {κ : Type}

/-! ## Containers and variables -/

/-- What the three variables refer to; the user may also be set to `None`. -/
structure Context where
  breadcrumbs : Option ℕ
  tags : Option ℕ
  user : Option (Option ℕ)

structure Containers (κ : Type) where
  contexts : κ → Option Context
  lists : ℕ → List Dict
  dicts : ℕ → List (PyStr × PyStr)
  users : ℕ → PyStr
  next : ℕ

/-- What the getters copy out of the containers. -/
structure Plain where
  breadcrumbs : List Dict
  tags : List (PyStr × PyStr)
  user : Option PyStr

def Containers.read (h : Containers κ) (c : Context) : Plain where
  breadcrumbs := (c.breadcrumbs.map h.lists).getD []
  tags := (c.tags.map h.dicts).getD []
  user := c.user.join.map h.users

def Containers.allocList (h : Containers κ) (items : List Dict) : Containers κ :=
  { h with lists := Function.update h.lists h.next items, next := h.next + 1 }

def Containers.allocDict (h : Containers κ) (entries : List (PyStr × PyStr)) : Containers κ :=
  { h with dicts := Function.update h.dicts h.next entries, next := h.next + 1 }

def Containers.allocUser (h : Containers κ) (id : PyStr) : Containers κ :=
  { h with users := Function.update h.users h.next id, next := h.next + 1 }

/-- The containers and the context after a call. -/
def Containers.call (h : Containers κ) (c : Context) : ScopeCall → Containers κ × Context
  | .addBreadcrumb input now =>
    let current := (h.read c).breadcrumbs
    (h.allocList (lastN (maxBreadcrumbs - 1) current ++ [input.crumb now]),
      { c with breadcrumbs := some h.next })
  | .setTag key value =>
    (h.allocDict (Assoc.upsert (h.read c).tags key value), { c with tags := some h.next })
  | .setUser none => (h, { c with user := some none })
  | .setUser (some id) => (h.allocUser id, { c with user := some (some h.next) })
  | .clear => ((h.allocList []).allocDict [], ⟨some h.next, some (h.next + 1), some none⟩)

section Machine

variable [DecidableEq κ]

/-- The next piece of code of a task or a thread. -/
abbrev ContextStep (κ : Type) := Step κ ScopeCall Empty

def contextStep (h : Containers κ) : ContextStep κ → Option (Containers κ)
  | .act k call => (h.contexts k).map fun c =>
    { (h.call c call).1 with
      contexts := Function.update (h.call c call).1.contexts k (some (h.call c call).2) }
  | .fork parent child =>
    match h.contexts parent, h.contexts child with
    | some c, none => some { h with contexts := Function.update h.contexts child (some c) }
    | _, _ => none
  | .fresh child =>
    match h.contexts child with
    | none => some { h with contexts := Function.update h.contexts child (some ⟨none, none, none⟩) }
    | some _ => none

/-- The main thread, before the first call. -/
def Containers.loaded (main : κ) : Containers κ where
  contexts k := if k = main then some ⟨none, none, none⟩ else none
  lists _ := []
  dicts _ := []
  users _ := []
  next := 0

end Machine

/-! ## What a context is for -/

/-- A scope of its own for each context, which a copy takes as it is. -/
def ownScope : Machine ScopeCall Empty Unit Scope where
  initial := .empty
  apply _ scope call := scope.apply call
  fork _ scope := scope
  turn _ w := nomatch w

def Scope.plain (scope : Scope) : Plain := ⟨scope.breadcrumbs.items, scope.tags, scope.user⟩

/-- A context refers to allocated containers. -/
structure Allocated (h : Containers κ) (c : Context) : Prop where
  breadcrumbs : ∀ a, c.breadcrumbs = some a → a < h.next
  tags : ∀ a, c.tags = some a → a < h.next
  user : ∀ a, c.user = some (some a) → a < h.next

/-- The containers hold the scopes of the contexts. -/
structure Holds (h : Containers κ) (s : State κ Unit Scope) : Prop where
  allocated : ∀ k c, h.contexts k = some c → Allocated h c
  value : ∀ k, (s.value k).map Scope.plain = (h.contexts k).map h.read

/-- Only new containers are written. -/
structure Extends (h h' : Containers κ) : Prop where
  contexts : h'.contexts = h.contexts
  grows : h.next ≤ h'.next
  old : ∀ a < h.next, h'.lists a = h.lists a ∧ h'.dicts a = h.dicts a ∧ h'.users a = h.users a

section Steps

variable {h h' : Containers κ} {c : Context}

theorem Extends.refl (h : Containers κ) : Extends h h := ⟨rfl, le_rfl, fun _ _ => ⟨rfl, rfl, rfl⟩⟩

theorem Extends.trans {h'' : Containers κ} (h₁ : Extends h h') (h₂ : Extends h' h'') :
    Extends h h'' where
  contexts := h₂.contexts.trans h₁.contexts
  grows := h₁.grows.trans h₂.grows
  old a ha := by
    obtain ⟨hl, hd, hu⟩ := h₁.old a ha
    obtain ⟨hl', hd', hu'⟩ := h₂.old a (ha.trans_le h₁.grows)
    exact ⟨hl'.trans hl, hd'.trans hd, hu'.trans hu⟩

theorem extends_allocList (h : Containers κ) (items : List Dict) :
    Extends h (h.allocList items) :=
  ⟨rfl, Nat.le_succ _, fun _ ha => ⟨Function.update_of_ne ha.ne _ _, rfl, rfl⟩⟩

theorem extends_allocDict (h : Containers κ) (entries : List (PyStr × PyStr)) :
    Extends h (h.allocDict entries) :=
  ⟨rfl, Nat.le_succ _, fun _ ha => ⟨rfl, Function.update_of_ne ha.ne _ _, rfl⟩⟩

theorem extends_allocUser (h : Containers κ) (id : PyStr) : Extends h (h.allocUser id) :=
  ⟨rfl, Nat.le_succ _, fun _ ha => ⟨rfl, rfl, Function.update_of_ne ha.ne _ _⟩⟩

theorem extends_call (h : Containers κ) (c : Context) (call : ScopeCall) :
    Extends h (h.call c call).1 := by
  cases call with
  | addBreadcrumb input now => exact extends_allocList h _
  | setTag key value => exact extends_allocDict h _
  | setUser id =>
      cases id with
      | none => exact .refl h
      | some id => exact extends_allocUser h id
  | clear => exact (extends_allocList h []).trans (extends_allocDict _ [])

/-- A context reads the same as long as only new containers are written. -/
theorem Extends.read (hext : Extends h h') (hc : Allocated h c) : h'.read c = h.read c := by
  have hlists : (c.breadcrumbs.map h'.lists).getD [] = (c.breadcrumbs.map h.lists).getD [] := by
    cases hb : c.breadcrumbs with
    | none => rfl
    | some a => exact (hext.old a (hc.breadcrumbs a hb)).1
  have hdicts : (c.tags.map h'.dicts).getD [] = (c.tags.map h.dicts).getD [] := by
    cases ht : c.tags with
    | none => rfl
    | some a => exact (hext.old a (hc.tags a ht)).2.1
  have husers : c.user.join.map h'.users = c.user.join.map h.users := by
    cases hu : c.user with
    | none => rfl
    | some user =>
        cases user with
        | none => rfl
        | some a => exact congrArg some (hext.old a (hc.user a hu)).2.2
  rw [Containers.read, Containers.read, hlists, hdicts, husers]

theorem Extends.allocated (hext : Extends h h') (hc : Allocated h c) : Allocated h' c :=
  ⟨fun a ha => (hc.breadcrumbs a ha).trans_le hext.grows,
    fun a ha => (hc.tags a ha).trans_le hext.grows, fun a ha => (hc.user a ha).trans_le hext.grows⟩

/-- The context after a call refers to what was there and to what the call has made. -/
theorem allocated_call (hc : Allocated h c) (call : ScopeCall) :
    Allocated (h.call c call).1 (h.call c call).2 := by
  have hkept := (extends_call h c call).allocated hc
  cases call with
  | addBreadcrumb input now =>
      refine ⟨fun a ha => ?_, hkept.tags, hkept.user⟩
      cases ha
      exact Nat.lt_succ_self _
  | setTag key value =>
      refine ⟨hkept.breadcrumbs, fun a ha => ?_, hkept.user⟩
      cases ha
      exact Nat.lt_succ_self _
  | setUser id =>
      cases id with
      | none => exact ⟨hkept.breadcrumbs, hkept.tags, fun a ha => by cases ha⟩
      | some id =>
          refine ⟨hkept.breadcrumbs, hkept.tags, fun a ha => ?_⟩
          cases ha
          exact Nat.lt_succ_self _
  | clear =>
      refine ⟨fun a ha => ?_, fun a ha => ?_, fun a ha => by cases ha⟩
      · cases ha
        exact Nat.lt_succ_of_lt (Nat.lt_succ_self _)
      · cases ha
        exact Nat.lt_succ_self _

/-- A call does to what a context reads what it does to a scope. -/
theorem read_call {scope : Scope} (hc : Allocated h c) (hread : scope.plain = h.read c)
    (call : ScopeCall) :
    (scope.apply call).plain = (h.call c call).1.read (h.call c call).2 := by
  have hcrumbs : scope.breadcrumbs.items = (h.read c).breadcrumbs :=
    congrArg Plain.breadcrumbs hread
  have htags : scope.tags = (h.read c).tags := congrArg Plain.tags hread
  have huser : scope.user = (h.read c).user := congrArg Plain.user hread
  have hkept := (extends_call h c call).read hc
  have hcrumbs' := hcrumbs.trans (congrArg Plain.breadcrumbs hkept.symm)
  have htags' := htags.trans (congrArg Plain.tags hkept.symm)
  have huser' := huser.trans (congrArg Plain.user hkept.symm)
  cases call with
  | addBreadcrumb input now =>
      have hnew : (h.call c (.addBreadcrumb input now)).1.lists h.next =
          lastN (maxBreadcrumbs - 1) (h.read c).breadcrumbs ++ [input.crumb now] :=
        Function.update_self ..
      have hitems : (scope.apply (.addBreadcrumb input now)).plain.breadcrumbs =
          lastN (maxBreadcrumbs - 1) scope.breadcrumbs.items ++ [input.crumb now] := rfl
      refine (Plain.mk.injEq ..).mpr ⟨?_, htags', huser'⟩
      exact (hitems.trans (by rw [hcrumbs])).trans hnew.symm
  | setTag key value =>
      have hnew : (h.call c (.setTag key value)).1.dicts h.next =
          Assoc.upsert (h.read c).tags key value := Function.update_self ..
      refine (Plain.mk.injEq ..).mpr ⟨hcrumbs', ?_, huser'⟩
      exact (congrArg (Assoc.upsert · key value) htags).trans hnew.symm
  | setUser id =>
      cases id with
      | none => exact (Plain.mk.injEq ..).mpr ⟨hcrumbs', htags', rfl⟩
      | some id =>
          have hnew : (h.call c (.setUser (some id))).1.users h.next = id :=
            Function.update_self ..
          exact (Plain.mk.injEq ..).mpr ⟨hcrumbs', htags', congrArg some hnew.symm⟩
  | clear =>
      have hlist : (h.call c .clear).1.lists h.next = [] := Function.update_self ..
      have hdict : (h.call c .clear).1.dicts (h.next + 1) = [] := Function.update_self ..
      exact (Plain.mk.injEq ..).mpr ⟨hlist.symm, hdict.symm, rfl⟩

variable [DecidableEq κ] {s : State κ Unit Scope}

/-- A context is bound anew, the others read what they read before. -/
theorem holds_update {k : κ} {scope : Scope} (hs : Holds h s) (hext : Extends h h')
    (hc : Allocated h' c) (hread : scope.plain = h'.read c) :
    Holds { h' with contexts := Function.update h'.contexts k (some c) }
      ⟨s.world, Function.update s.value k (some scope)⟩ where
  allocated k' c' hc' := by
    obtain ⟨-, rfl⟩ | ⟨-, hold⟩ := update_some hc'
    · exact ⟨hc.breadcrumbs, hc.tags, hc.user⟩
    · rw [hext.contexts] at hold
      have hold' := hext.allocated (hs.allocated k' c' hold)
      exact ⟨hold'.breadcrumbs, hold'.tags, hold'.user⟩
  value k' := by
    by_cases hk : k' = k
    · subst hk
      have hself : Function.update h'.contexts k' (some c) k' = some c := Function.update_self ..
      dsimp only
      rw [Function.update_self, hself, Option.map_some, Option.map_some, hread]
      rfl
    · have hother : Function.update h'.contexts k (some c) k' = h.contexts k' :=
        (Function.update_of_ne hk _ _).trans (congrFun hext.contexts k')
      dsimp only
      rw [Function.update_of_ne hk, hs.value k', hother]
      cases hc' : h.contexts k' with
      | none => rfl
      | some c' => exact congrArg some (hext.read (hs.allocated k' c' hc')).symm

/-- Every step of the SDK is the step of contexts that have a scope each. -/
theorem contexts_implemented : Implements ownScope (contextStep (κ := κ)) Holds := by
  intro h s st h' hs hstep
  have hscope {k : κ} {c : Context} (hc : h.contexts k = some c) :
      ∃ scope, s.value k = some scope ∧ scope.plain = h.read c := by
    have hvalue := hs.value k
    rw [hc] at hvalue
    exact Option.map_eq_some_iff.mp hvalue
  have hnone {k : κ} (hc : h.contexts k = none) : s.value k = none := by
    have hvalue := hs.value k
    rw [hc] at hvalue
    exact Option.map_eq_none_iff.mp hvalue
  cases st with
  | act k call =>
      obtain ⟨c, hc, rfl⟩ := Option.map_eq_some_iff.mp hstep
      obtain ⟨scope, hvalue, hread⟩ := hscope hc
      refine ⟨_, ?_, holds_update hs (extends_call h c call)
        (allocated_call (hs.allocated k c hc) call) (read_call (hs.allocated k c hc) hread call)⟩
      rw [Strands.step, hvalue]
      rfl
  | fork parent child =>
      rw [contextStep] at hstep
      split at hstep
      · next c hparent hchild =>
          cases hstep
          obtain ⟨scope, hvalue, hread⟩ := hscope hparent
          refine ⟨_, ?_, holds_update hs (.refl h) (hs.allocated parent c hparent) hread⟩
          rw [Strands.step, hvalue, hnone hchild]
          rfl
      · cases hstep
  | fresh child =>
      rw [contextStep] at hstep
      split at hstep
      · next hchild =>
          cases hstep
          have hempty : Allocated h ⟨none, none, none⟩ :=
            ⟨fun _ ha => (by cases ha), fun _ ha => (by cases ha), fun _ ha => (by cases ha)⟩
          have hread : Scope.empty.plain = h.read ⟨none, none, none⟩ := rfl
          refine ⟨_, ?_, holds_update hs (.refl h) hempty hread⟩
          rw [Strands.step, hnone hchild]
          rfl
      · cases hstep
  | world w => cases w

end Steps

/-! ## What an event tells of its context -/

section Lineages

/-- The breadcrumbs of a lineage since it was cleared, the newest last. -/
def trail : List (Moment ScopeCall Empty) → List Dict
  | [] => []
  | .own (.addBreadcrumb input now) :: earlier => trail earlier ++ [input.crumb now]
  | .own .clear :: _ => []
  | .fresh :: _ => []
  | _ :: earlier => trail earlier

theorem lastN_concat_lastN {α : Type} (n : ℕ) (xs : List α) (x : α) :
    lastN n (lastN (n + 1) xs) ++ [x] = lastN (n + 1) (xs ++ [x]) := by
  have hcount : xs.length - (n + 1) + (xs.length - (xs.length - (n + 1)) - n) =
      xs.length + 1 - (n + 1) := by omega
  have hless : xs.length + 1 - (n + 1) ≤ xs.length := by omega
  unfold lastN
  rw [List.drop_drop, List.length_drop, hcount, List.length_append, List.length_singleton,
    List.drop_append_of_le_length hless]

theorem replay_trail (history : List (Moment ScopeCall Empty)) :
    (replay ownScope () history).2.breadcrumbs.items = lastN maxBreadcrumbs (trail history) := by
  induction history with
  | nil => exact List.drop_nil.symm
  | cons e earlier ih =>
      cases e with
      | own call =>
          cases call with
          | addBreadcrumb input now =>
              have hadd : (replay ownScope () (.own (.addBreadcrumb input now) ::
                  earlier)).2.breadcrumbs.items = lastN (maxBreadcrumbs - 1)
                    (replay ownScope () earlier).2.breadcrumbs.items ++ [input.crumb now] := rfl
              rw [hadd, ih, trail]
              exact lastN_concat_lastN (maxBreadcrumbs - 1) _ _
          | clear => exact List.drop_nil.symm
          | _ => exact ih
      | fresh => exact List.drop_nil.symm
      | _ => exact ih

end Lineages

section Isolation

variable [DecidableEq κ]

theorem holds_loaded (main : κ) : Holds (Containers.loaded main) (start ownScope main ()) where
  allocated k c hc := by
    change (if k = main then some _ else none) = some c at hc
    split_ifs at hc
    obtain rfl := Option.some.inj hc
    exact ⟨fun _ ha => (by cases ha), fun _ ha => (by cases ha), fun _ ha => (by cases ha)⟩
  value k := by
    change (if k = main then some Scope.empty else none).map Scope.plain =
      (if k = main then some (⟨none, none, none⟩ : Context) else none).map _
    split_ifs
    · rfl
    · rfl

/-- An event carries what its own context has been through and what the contexts it was copied from
had been through by then, although copies share their containers. -/
theorem contexts_do_not_bleed (main : κ) (steps : List (ContextStep κ)) (h : Containers κ) (k : κ)
    (c : Context) (hrun : run contextStep (Containers.loaded main) steps = some h)
    (hc : h.contexts k = some c) :
    let history := lineage steps.reverse k
    h.read c = (replay ownScope () history).2.plain ∧
      (h.read c).breadcrumbs = lastN maxBreadcrumbs (trail history) := by
  intro history
  obtain ⟨s, hs, hholds⟩ := contexts_implemented.run (holds_loaded main) hrun
  have hvalue := hholds.value k
  rw [hc] at hvalue
  obtain ⟨scope, hscope, hread⟩ := Option.map_eq_some_iff.mp hvalue
  have hreplay : replay ownScope () history = (s.world, scope) := value_of_lineage hs hscope
  have hplain : h.read c = (replay ownScope () history).2.plain := by rw [hreplay, hread]
  refine ⟨hplain, ?_⟩
  rw [hplain]
  exact replay_trail history

/-- A task copies the context of the main thread, and both go on. -/
def taskAndMain : List (ContextStep ℕ) :=
  [.act 0 (.setTag (py "host") (py "a")), .fork 0 1, .act 1 (.setTag (py "host") (py "b")),
    .act 0 (.setUser (some (py "7"))), .fresh 2, .act 1 .clear, .act 2 (.setTag (py "t") (py "1"))]

theorem task_and_main_apart : ∃ h c,
    run contextStep (Containers.loaded 0) taskAndMain = some h ∧ h.contexts 0 = some c ∧
    let history := lineage taskAndMain.reverse 0
    h.read c = (replay ownScope () history).2.plain ∧
      (h.read c).breadcrumbs = lastN maxBreadcrumbs (trail history) :=
  ⟨_, _, rfl, rfl, contexts_do_not_bleed 0 taskAndMain _ 0 _ rfl rfl⟩

end Isolation

end Crashlens.Python
