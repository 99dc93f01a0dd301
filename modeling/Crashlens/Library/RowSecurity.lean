import Mathlib.Data.List.Nodup

/-!
# Tables under row level security

Every row belongs to one tenant. A statement runs in the scope of a tenant, in a scope that bypasses
the policy, or in none; it sees, changes and deletes only the rows its scope admits. `elsewhere t`
is the part of a table that belongs to the other tenants, which no statement in the scope of `t`
changes.

Foreign keys are kept outside the policy: a deletion removes the rows that refer to what it deletes,
whoever they belong to (`cascade`). Where every row belongs to the tenant of the row it refers to
(`Owned`), a cascade stays within the tenant as well.
-/

set_option linter.unusedSectionVars false

namespace RowSecurity

class TenantRow (τ : outParam Type) (α : Type) where
  tenant : α → τ

export TenantRow (tenant)

inductive Scope (τ : Type) where
  | tenant (t : τ)
  | bypass
  | unset
  deriving DecidableEq

variable {τ α β κ : Type} [DecidableEq τ] [TenantRow τ α] [TenantRow τ β] [DecidableEq κ]

def Scope.admits : Scope τ → τ → Bool
  | .tenant t, t' => t' = t
  | .bypass, _ => true
  | .unset, _ => false

def select (s : Scope τ) (p : α → Bool) (rows : List α) : List α :=
  rows.filter fun r => s.admits (tenant r) && p r

def update (s : Scope τ) (p : α → Bool) (f : α → α) (rows : List α) : List α :=
  rows.map fun r => if s.admits (tenant r) && p r then f r else r

def delete (s : Scope τ) (p : α → Bool) (rows : List α) : List α :=
  rows.filter fun r => !(s.admits (tenant r) && p r)

def elsewhere (t : τ) (rows : List α) : List α := rows.filter fun r => tenant r ≠ t

section Statements

variable {s : Scope τ} {t : τ} {p : α → Bool} {f : α → α} {rows : List α}

@[simp] theorem admits_tenant {t' : τ} : (Scope.tenant t).admits t' = true ↔ t' = t :=
  decide_eq_true_iff

theorem mem_select {r : α} :
    r ∈ select s p rows ↔ r ∈ rows ∧ s.admits (tenant r) = true ∧ p r = true := by
  rw [select, List.mem_filter, Bool.and_eq_true]

theorem mem_delete {r : α} :
    r ∈ delete s p rows ↔ r ∈ rows ∧ ¬(s.admits (tenant r) = true ∧ p r = true) := by
  rw [delete, List.mem_filter, Bool.not_eq_true', ← Bool.not_eq_true, Bool.and_eq_true]

theorem mem_update {r' : α} (h : r' ∈ update s p f rows) : ∃ r ∈ rows, r' = r ∨ r' = f r := by
  obtain ⟨r, hr, rfl⟩ := List.mem_map.mp h
  refine ⟨r, hr, ?_⟩
  split
  · exact .inr rfl
  · exact .inl rfl

theorem update_of_select_nil (h : select s p rows = []) : update s p f rows = rows := by
  have hnone : ∀ r ∈ rows, ¬(s.admits (tenant r) && p r) = true := List.filter_eq_nil_iff.mp h
  calc update s p f rows
      = rows.map id := List.map_congr_left fun r hr => if_neg (hnone r hr)
    _ = rows := List.map_id rows

theorem delete_of_select_nil (h : select s p rows = []) : delete s p rows = rows := by
  have hnone : ∀ r ∈ rows, ¬(s.admits (tenant r) && p r) = true := List.filter_eq_nil_iff.mp h
  refine List.filter_eq_self.mpr fun r hr => ?_
  rw [Bool.not_eq_true', ← Bool.not_eq_true]
  exact hnone r hr

theorem map_update {key : α → κ} (hf : ∀ r, key (f r) = key r) :
    (update s p f rows).map key = rows.map key := by
  rw [update, List.map_map]
  refine List.map_congr_left fun r _ => ?_
  rw [Function.comp_apply]
  split
  · exact hf r
  · rfl

theorem elsewhere_update (hf : ∀ r, tenant (f r) = tenant r) :
    elsewhere t (update (.tenant t) p f rows) = elsewhere t rows := by
  induction rows with
  | nil => rfl
  | cons r rows ih =>
      have hcons : update (.tenant t) p f (r :: rows) =
          (if (Scope.tenant t).admits (tenant r) && p r then f r else r) ::
            update (.tenant t) p f rows := rfl
      rw [hcons, elsewhere, elsewhere, List.filter_cons, List.filter_cons]
      by_cases hr : tenant r = t
      · have hnew : tenant (if (Scope.tenant t).admits (tenant r) && p r then f r else r) = t := by
          split
          · exact (hf r).trans hr
          · exact hr
        rw [if_neg (by rw [hnew]; simp), if_neg (by simp [hr])]
        exact ih
      · have hout : ¬((Scope.tenant t).admits (tenant r) && p r) = true := by
          rw [Bool.and_eq_true, admits_tenant]
          exact fun h => hr h.1
        rw [if_neg hout, if_pos (by simp [hr]), if_pos (by simp [hr])]
        exact congrArg (r :: ·) ih

theorem elsewhere_delete : elsewhere t (delete (.tenant t) p rows) = elsewhere t rows := by
  rw [elsewhere, delete, List.filter_filter]
  refine List.filter_congr fun r _ => ?_
  by_cases hr : tenant r = t
  · simp [hr]
  · have hout : (Scope.tenant t).admits (tenant r) = false := decide_eq_false hr
    simp [hr, hout]

theorem elsewhere_append {r : α} (hr : tenant r = t) :
    elsewhere t (rows ++ [r]) = elsewhere t rows := by
  rw [elsewhere, List.filter_append, List.filter_cons, if_neg (by simp [hr]), List.filter_nil,
    List.append_nil, elsewhere]

end Statements

/-! ## Foreign keys -/

/-- Every row belongs to the tenant of the row it refers to. -/
def Owned (key : β → κ) (parents : List β) (fk : α → Option κ) (children : List α) : Prop :=
  ∀ c ∈ children, ∀ k ∈ fk c, ∃ p ∈ parents, key p = k ∧ tenant p = tenant c

/-- `ON DELETE CASCADE` -/
def cascade (gone : κ → Bool) (fk : α → Option κ) (children : List α) : List α :=
  children.filter fun c => !(fk c).any gone

/-- The keys that a deletion removes. -/
def deletedKeys (s : Scope τ) (p : β → Bool) (key : β → κ) (parents : List β) (k : κ) : Bool :=
  (select s p parents).any fun r => key r = k

/-- The keys that a cascade removes in turn. -/
def cascadedKeys {μ : Type} [DecidableEq μ] (gone : κ → Bool) (fk : β → Option κ) (key : β → μ)
    (rows : List β) (k : μ) : Bool :=
  rows.any fun r => (fk r).any gone && key r = k

/-- The removed keys are keys of rows of one tenant. -/
def GoneWithin (t : τ) (key : β → κ) (parents : List β) (gone : κ → Bool) : Prop :=
  ∀ k, gone k = true → ∃ p ∈ parents, key p = k ∧ tenant p = t

section ForeignKeys

variable {s : Scope τ} {t : τ} {p : β → Bool} {key : β → κ} {parents parents' : List β}
  {fk : α → Option κ} {children children' : List α}

theorem deletedKeys_iff {k : κ} : deletedKeys s p key parents k = true ↔
    ∃ r ∈ parents, (s.admits (tenant r) = true ∧ p r = true) ∧ key r = k := by
  simp only [deletedKeys, List.any_eq_true, mem_select, decide_eq_true_eq, and_assoc]

theorem goneWithin_deletedKeys :
    GoneWithin t key parents (deletedKeys (.tenant t) p key parents) := by
  intro k hk
  obtain ⟨r, hr, ⟨hadm, -⟩, hkey⟩ := deletedKeys_iff.mp hk
  exact ⟨r, hr, hkey, admits_tenant.mp hadm⟩

theorem mem_delete_of_kept {r : β} (hr : r ∈ parents)
    (hkept : deletedKeys s p key parents (key r) = false) : r ∈ delete s p parents := by
  refine mem_delete.mpr ⟨hr, fun hgone => ?_⟩
  have hdel : deletedKeys s p key parents (key r) = true :=
    deletedKeys_iff.mpr ⟨r, hr, hgone, rfl⟩
  rw [hkept] at hdel
  cases hdel

theorem mem_cascade {gone : κ → Bool} {c : α} :
    c ∈ cascade gone fk children ↔ c ∈ children ∧ ∀ k ∈ fk c, gone k = false := by
  rw [cascade, List.mem_filter]
  cases fk c with
  | none => simp
  | some k => simp

theorem deletedKeys_of_select_nil (h : select s p parents = []) :
    deletedKeys s p key parents = fun _ => false := by
  funext k
  rw [deletedKeys, h, List.any_nil]

theorem cascade_none : cascade (fun _ => false) fk children = children := by
  refine List.filter_eq_self.mpr fun c _ => ?_
  cases fk c <;> rfl

theorem cascadedKeys_none {μ : Type} [DecidableEq μ] {own : β → μ} {fk : β → Option κ} :
    cascadedKeys (fun _ => false) fk own parents = fun _ => false := by
  funext k
  rw [cascadedKeys, List.any_eq_false]
  intro r _
  cases fk r <;> simp

theorem Owned.of_parents (h : Owned key parents fk children)
    (hp : ∀ p ∈ parents, ∃ p' ∈ parents', key p' = key p ∧ tenant p' = tenant p) :
    Owned key parents' fk children := by
  intro c hc k hk
  obtain ⟨p, hpmem, hkey, htenant⟩ := h c hc k hk
  obtain ⟨p', hp', hkey', htenant'⟩ := hp p hpmem
  exact ⟨p', hp', hkey'.trans hkey, htenant'.trans htenant⟩

theorem Owned.of_children (h : Owned key parents fk children)
    (hc : ∀ c' ∈ children', ∃ c ∈ children, fk c' = fk c ∧ tenant c' = tenant c) :
    Owned key parents fk children' := by
  intro c' hc' k hk
  obtain ⟨c, hcmem, hfk, htenant⟩ := hc c' hc'
  obtain ⟨p, hp, hkey, htenant'⟩ := h c hcmem k (hfk ▸ hk)
  exact ⟨p, hp, hkey, htenant'.trans htenant.symm⟩

theorem Owned.append_parent (h : Owned key parents fk children) (r : β) :
    Owned key (parents ++ [r]) fk children :=
  h.of_parents fun p hp => ⟨p, List.mem_append_left _ hp, rfl, rfl⟩

theorem Owned.append_child (h : Owned key parents fk children) {c : α}
    (hc : ∀ k ∈ fk c, ∃ p ∈ parents, key p = k ∧ tenant p = tenant c) :
    Owned key parents fk (children ++ [c]) := by
  intro c' hc'
  obtain hmem | hmem := List.mem_append.mp hc'
  · exact h c' hmem
  · rw [List.mem_singleton.mp hmem]
    exact hc

theorem Owned.update_parents {q : β → Bool} {f : β → β} (h : Owned key parents fk children)
    (hkey : ∀ r, key (f r) = key r) (htenant : ∀ r, tenant (f r) = tenant r) :
    Owned key (update s q f parents) fk children := by
  refine h.of_parents fun p hp => ⟨_, List.mem_map_of_mem hp, ?_⟩
  split
  · exact ⟨hkey p, htenant p⟩
  · exact ⟨rfl, rfl⟩

theorem Owned.update_children {q : α → Bool} {f : α → α} (h : Owned key parents fk children)
    (hfk : ∀ r, fk (f r) = fk r) (htenant : ∀ r, tenant (f r) = tenant r) :
    Owned key parents fk (update s q f children) := by
  refine h.of_children fun c' hc' => ?_
  obtain ⟨c, hc, rfl | rfl⟩ := mem_update hc'
  · exact ⟨c', hc, rfl, rfl⟩
  · exact ⟨c, hc, hfk c, htenant c⟩

theorem Owned.delete_children {q : α → Bool} (h : Owned key parents fk children) :
    Owned key parents fk (delete s q children) :=
  h.of_children fun c hc => ⟨c, (mem_delete.mp hc).1, rfl, rfl⟩

theorem Owned.cascade {gone : κ → Bool} (h : Owned key parents fk children)
    (hkept : ∀ r ∈ parents, gone (key r) = false → r ∈ parents') :
    Owned key parents' fk (cascade gone fk children) := by
  intro c hc k hk
  obtain ⟨hmem, hgone⟩ := mem_cascade.mp hc
  obtain ⟨r, hr, rfl, htenant⟩ := h c hmem k hk
  exact ⟨r, hkept r hr (hgone (key r) hk), rfl, htenant⟩

/-- A row that goes with its parent belongs to the parent's tenant. -/
theorem Owned.gone_tenant {gone : κ → Bool} (h : Owned key parents fk children)
    (hnodup : (parents.map key).Nodup) (hgone : GoneWithin t key parents gone) {c : α}
    (hc : c ∈ children) (hfk : (fk c).any gone = true) : tenant c = t := by
  obtain ⟨k, hk, hkgone⟩ := (Option.any_eq_true _ _).mp hfk
  obtain ⟨r, hr, hkey, htenant⟩ := h c hc k hk
  obtain ⟨r', hr', hkey', htenant'⟩ := hgone k hkgone
  have hsame : r = r' := List.inj_on_of_nodup_map hnodup hr hr' (hkey.trans hkey'.symm)
  rw [← htenant, hsame, htenant']

theorem elsewhere_cascade {gone : κ → Bool} (h : Owned key parents fk children)
    (hnodup : (parents.map key).Nodup) (hgone : GoneWithin t key parents gone) :
    elsewhere t (RowSecurity.cascade gone fk children) = elsewhere t children := by
  rw [elsewhere, RowSecurity.cascade, List.filter_filter]
  refine List.filter_congr fun c hc => ?_
  by_cases hct : tenant c = t
  · simp [hct]
  · have hkept : (fk c).any gone = false := by
      rw [← Bool.not_eq_true]
      exact fun hfk => hct (h.gone_tenant hnodup hgone hc hfk)
    simp [hct, hkept]

theorem GoneWithin.cascaded {μ : Type} [DecidableEq μ] {own : α → μ} {gone : κ → Bool}
    (hgone : GoneWithin t key parents gone) (h : Owned key parents fk children)
    (hnodup : (parents.map key).Nodup) :
    GoneWithin t own children (cascadedKeys gone fk own children) := by
  intro k hk
  obtain ⟨c, hc, hck⟩ := List.any_eq_true.mp hk
  obtain ⟨hfk, hown⟩ := Bool.and_eq_true_iff.mp hck
  exact ⟨c, hc, of_decide_eq_true hown, h.gone_tenant hnodup hgone hc hfk⟩

theorem mem_cascade_of_kept {μ : Type} [DecidableEq μ] {own : α → μ} {gone : κ → Bool} {c : α}
    (hc : c ∈ children) (hkept : cascadedKeys gone fk own children (own c) = false) :
    c ∈ RowSecurity.cascade gone fk children := by
  refine mem_cascade.mpr ⟨hc, fun k hk => ?_⟩
  have hnot := List.any_eq_false.mp hkept c hc
  rw [hk] at hnot
  simpa using hnot

end ForeignKeys

/-! ## The rows of one tenant -/

def own (t : τ) (rows : List α) : List α := rows.filter fun r => tenant r = t

section Own

variable {s : Scope τ} {t u : τ} {p : α → Bool} {f : α → α} {rows rows' : List α}

theorem select_own : select (.tenant t) p rows = select (.tenant t) p (own t rows) := by
  rw [select, select, own, List.filter_filter]
  refine List.filter_congr fun r _ => ?_
  by_cases hr : tenant r = t
  · simp [hr, Scope.admits]
  · simp [hr, Scope.admits]

theorem own_update (hf : ∀ r, tenant (f r) = tenant r) :
    own t (update s p f rows) = update s p f (own t rows) := by
  rw [own, own, update, update, List.filter_map]
  congr 1
  refine List.filter_congr fun r _ => ?_
  rw [Function.comp_apply]
  split
  · rw [hf r]
  · rfl

theorem own_delete : own t (delete s p rows) = delete s p (own t rows) := by
  rw [own, own, delete, delete, List.filter_filter, List.filter_filter]
  exact List.filter_congr fun r _ => Bool.and_comm _ _

theorem own_cascade {gone : κ → Bool} {fk : α → Option κ} :
    own t (cascade gone fk rows) = cascade gone fk (own t rows) := by
  rw [own, own, cascade, cascade, List.filter_filter, List.filter_filter]
  exact List.filter_congr fun r _ => Bool.and_comm _ _

theorem own_update_congr (h : own t rows' = own t rows) (hf : ∀ r, tenant (f r) = tenant r) :
    own t (update s p f rows') = own t (update s p f rows) := by
  rw [own_update hf, own_update hf, h]

theorem own_delete_congr (h : own t rows' = own t rows) :
    own t (delete s p rows') = own t (delete s p rows) := by
  rw [own_delete, own_delete, h]

theorem own_cascade_congr {gone gone' : κ → Bool} {fk : α → Option κ}
    (h : own t rows' = own t rows) (hgone : gone' = gone) :
    own t (cascade gone' fk rows') = own t (cascade gone fk rows) := by
  rw [own_cascade, own_cascade, h, hgone]

theorem own_append_congr (h : own t rows' = own t rows) (r : α) :
    own t (rows' ++ [r]) = own t (rows ++ [r]) := by
  rw [own, List.filter_append, own, List.filter_append]
  exact congrArg (· ++ _) h

theorem deletedKeys_own {key : α → κ} :
    deletedKeys (.tenant t) p key rows = deletedKeys (.tenant t) p key (own t rows) := by
  funext k
  rw [deletedKeys, deletedKeys, select_own]

theorem mem_own {r : α} : r ∈ own t rows ↔ r ∈ rows ∧ tenant r = t := by
  rw [own, List.mem_filter, decide_eq_true_eq]

/-- What leaves the rows of the others alone leaves those of any one of them alone. -/
theorem own_of_elsewhere (h : elsewhere u rows' = elsewhere u rows) (hne : t ≠ u) :
    own t rows' = own t rows := by
  have hown : ∀ rows : List α, own t rows = own t (elsewhere u rows) := by
    intro rows
    rw [own, own, elsewhere, List.filter_filter]
    refine List.filter_congr fun r _ => ?_
    by_cases hr : tenant r = t
    · simp [hr, hne]
    · simp [hr]
  rw [hown rows', h, ← hown rows]

/-- Where a cascade stays within the tenant, so do the keys that it removes in turn. -/
theorem cascadedKeys_own {μ : Type} [DecidableEq μ] {gone : κ → Bool} {key : β → κ}
    {parents : List β} {fk : α → Option κ} {ownKey : α → μ} (h : Owned key parents fk rows)
    (hnodup : (parents.map key).Nodup) (hgone : GoneWithin t key parents gone) :
    cascadedKeys gone fk ownKey rows = cascadedKeys gone fk ownKey (own t rows) := by
  funext k
  rw [Bool.eq_iff_iff, cascadedKeys, cascadedKeys, List.any_eq_true, List.any_eq_true]
  constructor
  · rintro ⟨r, hr, hk⟩
    have htenant := h.gone_tenant hnodup hgone hr (Bool.and_eq_true_iff.mp hk).1
    exact ⟨r, mem_own.mpr ⟨hr, htenant⟩, hk⟩
  · rintro ⟨r, hr, hk⟩
    exact ⟨r, (mem_own.mp hr).1, hk⟩

end Own

end RowSecurity
