import Crashlens.Library.Assoc
import Crashlens.Library.Strands
import Crashlens.JsText
import Crashlens.NormalizeRules

/-!
# Scopes of the Node SDK

`scope.ts`, `breadcrumbs.ts` and what `buildEvent` reads of them. A scope is an object with
references to a tags object, an array and a user object, and every call writes into the object it
finds there. A scope forked from another copies the three, so that no two scopes share one; only an
object that the application passed to `setUser` is shared with the application, which may write to
it. `AsyncLocalStorage` decides in which scope a piece of code runs, and the pieces interleave in
any order.
-/

namespace Crashlens.Node

open Strands Transactional

variable {κ υ δ : Type}

/-! ## Objects -/

abbrev Tags := List (JsStr × JsStr)

/-- `object[key] = value` for a string: `__proto__` is no property. -/
def Tags.assign (tags : Tags) (key value : JsStr) : Tags :=
  if key = js "__proto__" then tags else Assoc.upsert tags key value

structure Breadcrumb (δ : Type) where
  timestamp : JsStr
  type : Option JsStr
  category : Option JsStr
  level : Option JsStr
  message : Option JsStr
  data : Option δ
deriving DecidableEq

structure BreadcrumbInput (δ : Type) where
  timestamp : Option JsStr
  type : Option JsStr
  category : Option JsStr
  level : Option JsStr
  message : Option JsStr
  data : Option δ

def BreadcrumbInput.crumb (input : BreadcrumbInput δ) (nowIso : JsStr) : Breadcrumb δ where
  timestamp :=
    match input.timestamp with
    | some (c :: cs) => c :: cs
    | _ => nowIso
  type := input.type
  category := input.category
  level := input.level
  message := input.message
  data := input.data

/-- `while (items.length > max) items.shift()` -/
def shiftWhile {γ : Type} (max : ℕ) : List γ → List γ
  | [] => []
  | item :: items => if max < (item :: items).length then shiftWhile max items else item :: items

/-- `BreadcrumbBuffer.add` -/
def addCrumb {γ : Type} (max : ℕ) (items : List γ) (crumb : γ) : List γ :=
  if max = 0 then items else shiftWhile max (items ++ [crumb])

/-- An object the application made, or one that `clone` made. -/
inductive UserRef where
  | given (n : ℕ)
  | copied (address : ℕ)
deriving DecidableEq

/-- A `Scope` with its `BreadcrumbBuffer`. -/
structure ScopeObject where
  tags : ℕ
  user : Option UserRef
  items : ℕ
  max : ℕ

structure Heap (κ υ δ : Type) where
  scopes : κ → Option ScopeObject
  tags : ℕ → Tags
  arrays : ℕ → List (Breadcrumb δ)
  users : UserRef → υ
  next : ℕ

namespace Heap

variable (h : Heap κ υ δ)

def allocTags (tags : Tags) : ℕ × Heap κ υ δ :=
  (h.next, { h with tags := Function.update h.tags h.next tags, next := h.next + 1 })

def allocArray (items : List (Breadcrumb δ)) : ℕ × Heap κ υ δ :=
  (h.next, { h with arrays := Function.update h.arrays h.next items, next := h.next + 1 })

def allocUser (user : υ) : UserRef × Heap κ υ δ :=
  (.copied h.next,
    { h with users := Function.update h.users (.copied h.next) user, next := h.next + 1 })

/-- `{ ...this.user }` where there is one. -/
def copyUser : Option UserRef → Option UserRef × Heap κ υ δ
  | some user => ((h.allocUser (h.users user)).1, (h.allocUser (h.users user)).2)
  | none => (none, h)

/-- `Scope.clone`, with the clone of the buffer. -/
def clone (scope : ScopeObject) : ScopeObject × Heap κ υ δ :=
  let (tags, h₁) := h.allocTags (h.tags scope.tags)
  let (user, h₂) := h₁.copyUser scope.user
  let (items, h₃) := h₂.allocArray (h₂.arrays scope.items)
  (⟨tags, user, items, scope.max⟩, h₃)

end Heap

/-! ## Calls -/

inductive Call (δ : Type) where
  | setTag (key value : JsStr)
  /-- `null`, or an object of the application. -/
  | setUser (user : Option ℕ)
  | addBreadcrumb (input : BreadcrumbInput δ) (nowIso : JsStr)

/-- The next piece of code: a call in a scope, `runInScope` in a scope, or the application writing
to an object of its own. -/
abbrev ScopeStep (κ υ δ : Type) := Step κ (Call δ) (ℕ × υ)

section Machine

variable [DecidableEq κ]

def Heap.call (h : Heap κ υ δ) (k : κ) (scope : ScopeObject) : Call δ → Heap κ υ δ
  | .setTag key value =>
    { h with tags := Function.update h.tags scope.tags ((h.tags scope.tags).assign key value) }
  | .setUser user =>
    { h with scopes := Function.update h.scopes k (some { scope with user := user.map .given }) }
  | .addBreadcrumb input nowIso =>
    let items := addCrumb scope.max (h.arrays scope.items) (input.crumb nowIso)
    { h with arrays := Function.update h.arrays scope.items items }

def scopeStep (h : Heap κ υ δ) : ScopeStep κ υ δ → Option (Heap κ υ δ)
  | .act k c => (h.scopes k).map fun scope => h.call k scope c
  | .fork parent child =>
    match h.scopes parent, h.scopes child with
    | some scope, none =>
      let (copy, h') := h.clone scope
      some { h' with scopes := Function.update h'.scopes child (some copy) }
    | _, _ => none
  | .fresh _ => none
  | .world w => some { h with users := Function.update h.users (.given w.1) w.2 }

/-- The module as it is loaded: the fallback scope is the only one. -/
def Heap.loaded (fallback : κ) (max : ℕ) (users : ℕ → υ) (blank : υ) : Heap κ υ δ where
  scopes k := if k = fallback then some ⟨0, none, 0, max⟩ else none
  tags _ := []
  arrays _ := []
  users
    | .given n => users n
    | .copied _ => blank
  next := 1

end Machine

/-- What an event takes from the current scope, read when the event is serialised. -/
structure ScopeFields (υ δ : Type) where
  breadcrumbs : Option (List (Breadcrumb δ))
  tags : Option Tags
  user : Option υ

def Heap.scopeFields (h : Heap κ υ δ) (scope : ScopeObject) : ScopeFields υ δ where
  breadcrumbs := if (h.arrays scope.items).isEmpty then none else some (h.arrays scope.items)
  tags := if (h.tags scope.tags).isEmpty then none else some (h.tags scope.tags)
  user := scope.user.map h.users

/-! ## What a scope is for -/

/-- The user object of a scope: one of the application, or what it was when the scope was forked. -/
inductive UserValue (υ : Type) where
  | given (n : ℕ)
  | was (user : υ)

structure ScopeValue (υ δ : Type) where
  tags : Tags
  user : Option (UserValue υ)
  breadcrumbs : List (Breadcrumb δ)

def UserValue.read (users : ℕ → υ) : UserValue υ → υ
  | given n => users n
  | was user => user

/-- A scope of its own: its calls change it, and a fork takes it as it is. -/
def isolated (max : ℕ) : Machine (Call δ) (ℕ × υ) (ℕ → υ) (ScopeValue υ δ) where
  initial := ⟨[], none, []⟩
  apply _ v
    | .setTag key value => { v with tags := v.tags.assign key value }
    | .setUser user => { v with user := user.map .given }
    | .addBreadcrumb input nowIso =>
      { v with breadcrumbs := addCrumb max v.breadcrumbs (input.crumb nowIso) }
  fork users v := { v with user := v.user.map fun user => .was (user.read users) }
  turn users w := Function.update users w.1 w.2

def ScopeValue.fields (users : ℕ → υ) (v : ScopeValue υ δ) : ScopeFields υ δ where
  breadcrumbs := if v.breadcrumbs.isEmpty then none else some v.breadcrumbs
  tags := if v.tags.isEmpty then none else some v.tags
  user := v.user.map (UserValue.read users)

/-! ## Scopes share nothing -/

/-- Every object of a scope is allocated, and no two scopes have one in common. -/
structure Separate (max : ℕ) (h : Heap κ υ δ) : Prop where
  allocated : ∀ k scope, h.scopes k = some scope → scope.tags < h.next ∧ scope.items < h.next ∧
    ∀ a, scope.user = some (.copied a) → a < h.next
  max_eq : ∀ k scope, h.scopes k = some scope → scope.max = max
  disjoint : ∀ k k' scope scope', h.scopes k = some scope → h.scopes k' = some scope' → k ≠ k' →
    scope.tags ≠ scope'.tags ∧ scope.items ≠ scope'.items

def Heap.userValue (h : Heap κ υ δ) : UserRef → UserValue υ
  | .given n => .given n
  | .copied a => .was (h.users (.copied a))

def Heap.scopeValue (h : Heap κ υ δ) (scope : ScopeObject) : ScopeValue υ δ :=
  ⟨h.tags scope.tags, scope.user.map h.userValue, h.arrays scope.items⟩

/-- The heap holds the values of the isolated scopes. -/
structure Represents (max : ℕ) (h : Heap κ υ δ) (s : State κ (ℕ → υ) (ScopeValue υ δ)) : Prop where
  separate : Separate max h
  world : s.world = fun n => h.users (.given n)
  value : ∀ k, s.value k = (h.scopes k).map h.scopeValue

/-! ## One step -/

section Clone

variable (h : Heap κ υ δ) (scope : ScopeObject)

/-- A clone has objects of its own with the contents of the cloned ones, and the old ones stay. -/
structure Cloned (h : Heap κ υ δ) (scope copy : ScopeObject) (h' : Heap κ υ δ) : Prop where
  scopes : h'.scopes = h.scopes
  grows : h.next ≤ h'.next
  tags : h.next ≤ copy.tags ∧ copy.tags < h'.next ∧ h'.tags copy.tags = h.tags scope.tags
  items : h.next ≤ copy.items ∧ copy.items < h'.next ∧
    h'.arrays copy.items = h.arrays scope.items
  user : ∀ a, copy.user = some (.copied a) → a < h'.next
  userValue : copy.user.map h'.userValue = scope.user.map fun user => .was (h.users user)
  max_eq : copy.max = scope.max
  old : ∀ a < h.next, h'.tags a = h.tags a ∧ h'.arrays a = h.arrays a ∧
    h'.users (.copied a) = h.users (.copied a)
  given : ∀ n, h'.users (.given n) = h.users (.given n)

theorem clone_of_none (tags items max : ℕ) : h.clone ⟨tags, none, items, max⟩ =
    (⟨h.next, none, h.next + 1, max⟩,
      { h with
        tags := Function.update h.tags h.next (h.tags tags)
        arrays := Function.update h.arrays (h.next + 1) (h.arrays items)
        next := h.next + 2 }) := rfl

theorem clone_of_some (tags items max : ℕ) (user : UserRef) :
    h.clone ⟨tags, some user, items, max⟩ =
    (⟨h.next, some (.copied (h.next + 1)), h.next + 2, max⟩,
      { h with
        tags := Function.update h.tags h.next (h.tags tags)
        users := Function.update h.users (.copied (h.next + 1)) (h.users user)
        arrays := Function.update h.arrays (h.next + 2) (h.arrays items)
        next := h.next + 3 }) := rfl

theorem clone_cloned : Cloned h scope (h.clone scope).1 (h.clone scope).2 := by
  obtain ⟨tags, user, items, max⟩ := scope
  cases user with
  | none =>
      rw [clone_of_none]
      refine ⟨rfl, Nat.le_add_right _ _, ⟨le_rfl, ?_, Function.update_self ..⟩,
        ⟨Nat.le_add_right _ _, ?_, Function.update_self ..⟩, ?_, rfl, rfl,
        fun a ha => ⟨?_, ?_, rfl⟩, fun _ => rfl⟩
      · exact Nat.lt_add_of_pos_right (by decide)
      · exact Nat.lt_succ_self _
      · exact fun a ha => by cases ha
      · exact Function.update_of_ne (by omega) _ _
      · exact Function.update_of_ne (by omega) _ _
  | some user =>
      rw [clone_of_some]
      refine ⟨rfl, Nat.le_add_right _ _, ⟨le_rfl, ?_, Function.update_self ..⟩,
        ⟨Nat.le_add_right _ _, ?_, Function.update_self ..⟩, ?_, ?_, rfl,
        fun a ha => ⟨?_, ?_, ?_⟩, fun n => ?_⟩
      · exact Nat.lt_add_of_pos_right (by decide)
      · exact Nat.lt_succ_self _
      · intro a ha
        cases ha
        exact Nat.lt_succ_of_lt (Nat.lt_succ_self _)
      · exact congrArg (fun v => some (UserValue.was v)) (Function.update_self ..)
      · exact Function.update_of_ne (by omega) _ _
      · exact Function.update_of_ne (by omega) _ _
      · refine Function.update_of_ne (fun hcopied => ?_) _ _
        cases hcopied
        omega
      · have hne : UserRef.given n ≠ .copied (h.next + 1) := nofun
        exact Function.update_of_ne hne (h.users user) h.users

end Clone

section Steps

variable [DecidableEq κ] {max : ℕ} {h h' : Heap κ υ δ} {s s' : State κ (ℕ → υ) (ScopeValue υ δ)}

omit [DecidableEq κ] in
/-- A scope whose objects are as they were has the value it had. -/
theorem scopeValue_congr {scope : ScopeObject} (htags : h'.tags scope.tags = h.tags scope.tags)
    (harray : h'.arrays scope.items = h.arrays scope.items)
    (huser : ∀ a, scope.user = some (.copied a) → h'.users (.copied a) = h.users (.copied a)) :
    h'.scopeValue scope = h.scopeValue scope := by
  have huser' : scope.user.map h'.userValue = scope.user.map h.userValue := by
    cases hu : scope.user with
    | none => rfl
    | some user =>
        cases user with
        | given n => rfl
        | copied a => exact congrArg (fun v => some (UserValue.was v)) (huser a hu)
  rw [Heap.scopeValue, Heap.scopeValue, htags, harray, huser']

/-- The values after a step that gives one scope a value and leaves the others theirs. -/
theorem values_update {k : κ} {v : ScopeValue υ δ}
    (hvalue : ∀ k, s.value k = (h.scopes k).map h.scopeValue)
    (hself : (h'.scopes k).map h'.scopeValue = some v)
    (hothers : ∀ k' ≠ k, (h'.scopes k').map h'.scopeValue = (h.scopes k').map h.scopeValue)
    (k' : κ) : Function.update s.value k (some v) k' = (h'.scopes k').map h'.scopeValue := by
  by_cases hk : k' = k
  · rw [hk, Function.update_self, hself]
  · rw [Function.update_of_ne hk, hothers k' hk, hvalue k']

omit [DecidableEq κ] in
theorem map_scopeValue_congr {k : κ} (hscopes : h'.scopes k = h.scopes k)
    (hsame : ∀ scope, h.scopes k = some scope → h'.scopeValue scope = h.scopeValue scope) :
    (h'.scopes k).map h'.scopeValue = (h.scopes k).map h.scopeValue := by
  rw [hscopes]
  cases hscope : h.scopes k with
  | none => rfl
  | some scope => exact congrArg some (hsame scope hscope)

/-- A call writes into objects of its scope, and no other scope has them. -/
theorem represents_act {k : κ} {scope : ScopeObject} (hR : Represents max h s)
    (hscope : h.scopes k = some scope) (c : Call δ) :
    Represents max (h.call k scope c) ⟨s.world, Function.update s.value k
      (some ((isolated max).apply s.world (h.scopeValue scope) c))⟩ := by
  have hothers {k' : κ} {scope' : ScopeObject} (hk : k' ≠ k)
      (hscope' : h.scopes k' = some scope') :=
    hR.separate.disjoint k' k scope' scope hscope' hscope hk
  cases c with
  | setTag key value =>
      refine ⟨⟨hR.separate.allocated, hR.separate.max_eq, hR.separate.disjoint⟩, hR.world,
        values_update hR.value ?_ fun k' hk => map_scopeValue_congr rfl fun scope' hscope' => ?_⟩
      · have htags : (h.call k scope (.setTag key value)).tags scope.tags =
            (h.tags scope.tags).assign key value := Function.update_self ..
        have hscopes : (h.call k scope (.setTag key value)).scopes k = some scope := hscope
        rw [hscopes, Option.map_some, Heap.scopeValue, htags]
        rfl
      · exact scopeValue_congr (Function.update_of_ne (hothers hk hscope').1 _ _) rfl fun _ _ => rfl
  | setUser user =>
      have hset : (h.call k scope (.setUser user)).scopes =
          Function.update h.scopes k (some { scope with user := user.map .given }) := rfl
      have hcases {k' : κ} {scope' : ScopeObject}
          (hscope' : (h.call k scope (.setUser user)).scopes k' = some scope') :
          k' = k ∧ scope' = { scope with user := user.map .given } ∨
            k' ≠ k ∧ h.scopes k' = some scope' := by
        rw [hset] at hscope'
        obtain ⟨rfl, rfl⟩ | ⟨hk, hold⟩ := update_some hscope'
        · exact .inl ⟨rfl, rfl⟩
        · exact .inr ⟨hk.symm, hold⟩
      refine ⟨⟨fun k' scope' hscope' => ?_, fun k' scope' hscope' => ?_,
        fun k₁ k₂ scope₁ scope₂ h₁ h₂ hne => ?_⟩, hR.world,
        values_update hR.value ?_ fun k' hk => map_scopeValue_congr ?_ fun _ _ => rfl⟩
      · obtain ⟨rfl, rfl⟩ | ⟨-, hold⟩ := hcases hscope'
        · obtain ⟨htags, hitems, -⟩ := hR.separate.allocated k' scope hscope
          refine ⟨htags, hitems, fun a ha => ?_⟩
          cases user with
          | none => cases ha
          | some n => cases ha
        · exact hR.separate.allocated k' scope' hold
      · obtain ⟨rfl, rfl⟩ | ⟨-, hold⟩ := hcases hscope'
        · exact hR.separate.max_eq k' scope hscope
        · exact hR.separate.max_eq k' scope' hold
      · obtain ⟨rfl, rfl⟩ | ⟨hk₁, hold₁⟩ := hcases h₁
        · obtain ⟨rfl, -⟩ | ⟨hk₂, hold₂⟩ := hcases h₂
          · exact absurd rfl hne
          · exact hR.separate.disjoint k₁ k₂ scope scope₂ hscope hold₂ hne
        · obtain ⟨rfl, rfl⟩ | ⟨hk₂, hold₂⟩ := hcases h₂
          · exact hR.separate.disjoint k₁ k₂ scope₁ scope hold₁ hscope hne
          · exact hR.separate.disjoint k₁ k₂ scope₁ scope₂ hold₁ hold₂ hne
      · rw [hset, Function.update_self, Option.map_some]
        have huser : (user.map UserRef.given).map (h.call k scope (.setUser user)).userValue =
            user.map .given := by
          cases user with
          | none => rfl
          | some n => rfl
        rw [Heap.scopeValue, huser]
        rfl
      · rw [hset, Function.update_of_ne hk]
  | addBreadcrumb input nowIso =>
      refine ⟨⟨hR.separate.allocated, hR.separate.max_eq, hR.separate.disjoint⟩, hR.world,
        values_update hR.value ?_ fun k' hk => map_scopeValue_congr rfl fun scope' hscope' => ?_⟩
      · have hitems : (h.call k scope (.addBreadcrumb input nowIso)).arrays scope.items =
            addCrumb max (h.arrays scope.items) (input.crumb nowIso) := by
          rw [← hR.separate.max_eq k scope hscope]
          exact Function.update_self ..
        have hscopes : (h.call k scope (.addBreadcrumb input nowIso)).scopes k = some scope :=
          hscope
        rw [hscopes, Option.map_some, Heap.scopeValue, hitems]
        rfl
      · exact scopeValue_congr rfl (Function.update_of_ne (hothers hk hscope').2 _ _) fun _ _ => rfl

/-- A fork has objects of its own. -/
theorem represents_fork {parent child : κ} {scope copy : ScopeObject} {h₁ : Heap κ υ δ}
    (hR : Represents max h s) (hparent : h.scopes parent = some scope)
    (hchild : h.scopes child = none) (hclone : Cloned h scope copy h₁) :
    Represents max { h₁ with scopes := Function.update h₁.scopes child (some copy) }
      ⟨s.world, Function.update s.value child
        (some ((isolated max).fork s.world (h.scopeValue scope)))⟩ := by
  have hcases {k : κ} {scope' : ScopeObject}
      (hscope' : Function.update h₁.scopes child (some copy) k = some scope') :
      k = child ∧ scope' = copy ∨ k ≠ child ∧ h.scopes k = some scope' := by
    obtain ⟨rfl, rfl⟩ | ⟨hk, hold⟩ := update_some hscope'
    · exact .inl ⟨rfl, rfl⟩
    · exact .inr ⟨hk.symm, hclone.scopes ▸ hold⟩
  have hgrows := hclone.grows
  obtain ⟨htagsLow, htagsHigh, htags⟩ := hclone.tags
  obtain ⟨hitemsLow, hitemsHigh, hitems⟩ := hclone.items
  -- The new addresses are above those of every scope there is.
  have happart {k : κ} {scope' : ScopeObject} (hold : h.scopes k = some scope') :
      copy.tags ≠ scope'.tags ∧ copy.items ≠ scope'.items := by
    obtain ⟨hold₁, hold₂, -⟩ := hR.separate.allocated k scope' hold
    exact ⟨by omega, by omega⟩
  refine ⟨⟨fun k scope' hscope' => ?_, fun k scope' hscope' => ?_,
    fun k₁ k₂ scope₁ scope₂ hk₁ hk₂ hne => ?_⟩, ?_,
    values_update hR.value ?_ fun k hk => map_scopeValue_congr ?_ fun scope' hscope' => ?_⟩
  · obtain ⟨-, rfl⟩ | ⟨-, hold⟩ := hcases hscope'
    · exact ⟨htagsHigh, hitemsHigh, hclone.user⟩
    · obtain ⟨hold₁, hold₂, hold₃⟩ := hR.separate.allocated k scope' hold
      exact ⟨hold₁.trans_le hgrows, hold₂.trans_le hgrows, fun a ha => (hold₃ a ha).trans_le hgrows⟩
  · obtain ⟨-, rfl⟩ | ⟨-, hold⟩ := hcases hscope'
    · exact hclone.max_eq.trans (hR.separate.max_eq parent scope hparent)
    · exact hR.separate.max_eq k scope' hold
  · obtain ⟨rfl, rfl⟩ | ⟨-, hold₁⟩ := hcases hk₁
    · obtain ⟨rfl, -⟩ | ⟨-, hold₂⟩ := hcases hk₂
      · exact absurd rfl hne
      · exact happart hold₂
    · obtain ⟨rfl, rfl⟩ | ⟨-, hold₂⟩ := hcases hk₂
      · obtain ⟨hapart₁, hapart₂⟩ := happart hold₁
        exact ⟨hapart₁.symm, hapart₂.symm⟩
      · exact hR.separate.disjoint k₁ k₂ scope₁ scope₂ hold₁ hold₂ hne
  · rw [hR.world]
    exact funext fun n => (hclone.given n).symm
  · have hread : scope.user.map (fun user => UserValue.was (h.users user)) =
        (scope.user.map h.userValue).map fun user => .was (user.read s.world) := by
      rw [Option.map_map, hR.world]
      refine congrArg (Option.map · scope.user) (funext fun user => ?_)
      cases user with
      | given n => rfl
      | copied a => rfl
    have huser : copy.user.map h₁.userValue =
        (scope.user.map h.userValue).map fun user => .was (user.read s.world) :=
      hclone.userValue.trans hread
    have hself : Function.update h₁.scopes child (some copy) child = some copy :=
      Function.update_self ..
    dsimp only
    rw [hself, Option.map_some]
    refine congrArg some ?_
    change (⟨h₁.tags copy.tags, copy.user.map h₁.userValue, h₁.arrays copy.items⟩ :
      ScopeValue υ δ) = _
    rw [htags, huser, hitems]
    rfl
  · exact (Function.update_of_ne hk _ _).trans (congrFun hclone.scopes k)
  · obtain ⟨hold₁, hold₂, hold₃⟩ := hR.separate.allocated k scope' hscope'
    exact scopeValue_congr (hclone.old _ hold₁).1 (hclone.old _ hold₂).2.1 fun a ha =>
      (hclone.old a (hold₃ a ha)).2.2

/-- Every step of the module is the step of scopes that share nothing. -/
theorem scopes_implemented :
    Implements (isolated max) (scopeStep (κ := κ) (υ := υ) (δ := δ)) (Represents max) := by
  intro h s st h' hR hstep
  cases st with
  | act k c =>
      obtain ⟨scope, hscope, rfl⟩ := Option.map_eq_some_iff.mp hstep
      refine ⟨_, ?_, represents_act hR hscope c⟩
      rw [Strands.step, hR.value k, hscope]
      rfl
  | fork parent child =>
      rw [scopeStep] at hstep
      split at hstep
      · next scope hparent hchild =>
          cases hstep
          refine ⟨_, ?_, represents_fork hR hparent hchild (clone_cloned h scope)⟩
          rw [Strands.step, hR.value parent, hR.value child, hparent, hchild]
          rfl
      · cases hstep
  | fresh child => cases hstep
  | world w =>
      cases hstep
      refine ⟨_, rfl, ⟨⟨hR.separate.allocated, hR.separate.max_eq, hR.separate.disjoint⟩, ?_,
        fun k => ?_⟩⟩
      · change Function.update s.world w.1 w.2 = _
        rw [hR.world]
        refine funext fun n => ?_
        change Function.update (fun n => h.users (.given n)) w.1 w.2 n =
          Function.update h.users (.given w.1) w.2 (.given n)
        by_cases hn : n = w.1
        · rw [hn, Function.update_self, Function.update_self]
        · have hne : UserRef.given n ≠ .given w.1 := fun heq => hn (UserRef.given.inj heq)
          rw [Function.update_of_ne hn, Function.update_of_ne hne]
      · have hcopied (a : ℕ) :
            Function.update h.users (.given w.1) w.2 (.copied a) = h.users (.copied a) :=
          Function.update_of_ne (by simp) _ _
        refine (hR.value k).trans (map_scopeValue_congr rfl fun scope _ => ?_).symm
        exact scopeValue_congr rfl rfl fun a _ => hcopied a

end Steps

/-! ## What an event tells of its scope -/

section Lineages

variable {ω : Type}

/-- The breadcrumbs of a lineage, the newest last. -/
def crumbsOf : List (Moment (Call δ) ω) → List (Breadcrumb δ)
  | [] => []
  | .own (.addBreadcrumb input nowIso) :: earlier => crumbsOf earlier ++ [input.crumb nowIso]
  | .fresh :: _ => []
  | _ :: earlier => crumbsOf earlier

/-- The value a lineage has set last for a tag. -/
def lastTag (key : JsStr) : List (Moment (Call δ) ω) → Option JsStr
  | [] => none
  | .own (.setTag key' value) :: earlier =>
    if key' = key ∧ key ≠ js "__proto__" then some value else lastTag key earlier
  | .fresh :: _ => none
  | _ :: earlier => lastTag key earlier

theorem shiftWhile_eq {γ : Type} (max : ℕ) (items : List γ) :
    shiftWhile max items = lastN max items := by
  induction items with
  | nil => exact List.drop_nil.symm
  | cons item items ih =>
      rw [shiftWhile]
      split_ifs with hmore
      · have hdrop : (item :: items).length - max = items.length - max + 1 := by
          rw [List.length_cons] at hmore ⊢
          omega
        rw [ih, lastN, lastN, hdrop, List.drop_succ_cons]
      · exact (lastN_of_le (not_lt.mp hmore)).symm

/-- Adding to the last `max` of a list gives the last `max` of the longer list. -/
theorem addCrumb_lastN {γ : Type} (max : ℕ) (items : List γ) (crumb : γ) :
    addCrumb max (lastN max items) crumb = lastN max (items ++ [crumb]) := by
  unfold addCrumb
  split_ifs with hzero
  · subst hzero
    rw [lastN, lastN, Nat.sub_zero, Nat.sub_zero, List.drop_length, List.drop_length]
  · have hkept : (lastN max items).length = min max items.length := by
      rw [lastN, List.length_drop]
      omega
    have hless : min max items.length + 1 - max ≤ min max items.length := by omega
    have hless' : items.length + 1 - max ≤ items.length := by omega
    have hcount : items.length - max + (min max items.length + 1 - max) =
        items.length + 1 - max := by omega
    rw [shiftWhile_eq]
    unfold lastN at hkept ⊢
    rw [List.length_append, List.length_append, hkept, List.length_singleton,
      List.drop_append_of_le_length (hkept ▸ hless), List.drop_append_of_le_length hless',
      List.drop_drop, hcount]

theorem replay_breadcrumbs (max : ℕ) (users : ℕ → υ) (history : List (Moment (Call δ) (ℕ × υ))) :
    (replay (isolated max) users history).2.breadcrumbs = lastN max (crumbsOf history) := by
  induction history with
  | nil => exact List.drop_nil.symm
  | cons e earlier ih =>
      cases e with
      | own c =>
          cases c with
          | addBreadcrumb input nowIso =>
              rw [crumbsOf, ← addCrumb_lastN, ← ih]
              rfl
          | _ => exact ih
      | fresh => exact List.drop_nil.symm
      | _ => exact ih

theorem lookup_assign (tags : Tags) (key key' value : JsStr) :
    (tags.assign key' value).lookup key =
      if key' = key ∧ key ≠ js "__proto__" then some value else tags.lookup key := by
  unfold Tags.assign
  split_ifs with hproto hkey hkey
  · exact absurd (hkey.1 ▸ hproto) hkey.2
  · rfl
  · rw [hkey.1]
    exact Assoc.lookup_upsert_self tags value key
  · have hne : key ≠ key' := fun heq => hkey ⟨heq.symm, heq ▸ hproto⟩
    exact Assoc.lookup_upsert_ne tags value hne

theorem replay_tags (max : ℕ) (users : ℕ → υ) (key : JsStr)
    (history : List (Moment (Call δ) (ℕ × υ))) :
    (replay (isolated max) users history).2.tags.lookup key = lastTag key history := by
  induction history with
  | nil => rfl
  | cons e earlier ih =>
      cases e with
      | own c =>
          cases c with
          | setTag key' value =>
              rw [lastTag, ← ih]
              exact lookup_assign _ _ _ _
          | _ => exact ih
      | fresh => rfl
      | _ => exact ih

end Lineages

section Isolation

variable [DecidableEq κ]

theorem represents_loaded (fallback : κ) (max : ℕ) (users : ℕ → υ) (blank : υ) :
    Represents max (Heap.loaded (δ := δ) fallback max users blank)
      (start (isolated max) fallback users) := by
  have hloaded {k : κ} {scope : ScopeObject}
      (h : (Heap.loaded (δ := δ) fallback max users blank).scopes k = some scope) :
      k = fallback ∧ scope = ⟨0, none, 0, max⟩ := by
    change (if k = fallback then some _ else none) = some scope at h
    split_ifs at h with hk
    exact ⟨hk, (Option.some.inj h).symm⟩
  refine ⟨⟨fun k scope h => ?_, fun k scope h => ?_, fun k k' scope scope' h h' hne => ?_⟩, rfl,
    fun k => ?_⟩
  · obtain ⟨-, rfl⟩ := hloaded h
    exact ⟨Nat.zero_lt_one, Nat.zero_lt_one, fun a ha => by cases ha⟩
  · rw [(hloaded h).2]
  · exact absurd ((hloaded h).1.trans (hloaded h').1.symm) hne
  · change (if k = fallback then _ else none) =
      (if k = fallback then some (⟨0, none, 0, max⟩ : ScopeObject) else none).map _
    split_ifs
    · rfl
    · rfl

omit [DecidableEq κ] in
theorem scopeFields_eq (h : Heap κ υ δ) (scope : ScopeObject) :
    h.scopeFields scope = (h.scopeValue scope).fields fun n => h.users (.given n) := by
  have huser : scope.user.map h.users =
      (scope.user.map h.userValue).map (UserValue.read fun n => h.users (.given n)) := by
    rw [Option.map_map]
    refine congrArg (Option.map · scope.user) (funext fun user => ?_)
    cases user with
    | given n => rfl
    | copied a => rfl
  rw [Heap.scopeFields, huser]
  rfl

/-- An event carries what its own scope has been through and what the scopes it was forked from had
been through by then: calls in other scopes, however they interleave, leave no trace. -/
theorem scopes_do_not_bleed (fallback : κ) (max : ℕ) (users : ℕ → υ) (blank : υ)
    (steps : List (ScopeStep κ υ δ)) (h : Heap κ υ δ) (k : κ) (scope : ScopeObject)
    (hrun : run scopeStep (Heap.loaded fallback max users blank) steps = some h)
    (hscope : h.scopes k = some scope) :
    let history := lineage steps.reverse k
    let r := replay (isolated max) users history
    h.scopeFields scope = r.2.fields r.1 ∧ r.2.breadcrumbs = lastN max (crumbsOf history) ∧
      ∀ key, r.2.tags.lookup key = lastTag key history := by
  intro history r
  obtain ⟨s, hs, hR⟩ := scopes_implemented.run (represents_loaded fallback max users blank) hrun
  have hvalue : s.value k = some (h.scopeValue scope) := by rw [hR.value k, hscope, Option.map_some]
  have hr : r = (s.world, h.scopeValue scope) := value_of_lineage hs hvalue
  refine ⟨?_, replay_breadcrumbs max users history,
    fun key => replay_tags max users key history⟩
  rw [hr, scopeFields_eq, hR.world]

/-- Two requests that interleave: the first sets a tag, the second the same tag and a user that the
application changes afterwards. -/
def twoRequests : List (ScopeStep ℕ ℕ Unit) :=
  [.act 0 (.setTag (js "host") (js "a")), .fork 0 1, .fork 0 2,
    .act 1 (.setTag (js "route") (js "/pay")), .act 2 (.setTag (js "route") (js "/home")),
    .act 2 (.setUser (some 7)), .world (7, 8), .act 1 (.setUser none)]

theorem two_requests_apart : ∃ h scope,
    run scopeStep (Heap.loaded 0 100 (fun n => n) 0) twoRequests = some h ∧
    h.scopes 2 = some scope ∧
    let history := lineage twoRequests.reverse 2
    let r := replay (isolated 100) (fun n => n) history
    h.scopeFields scope = r.2.fields r.1 ∧ r.2.breadcrumbs = lastN 100 (crumbsOf history) ∧
      ∀ key, r.2.tags.lookup key = lastTag key history :=
  ⟨_, _, rfl, rfl, scopes_do_not_bleed 0 100 (fun n => n) 0 twoRequests _ 2 _ rfl rfl⟩

end Isolation

end Crashlens.Node
