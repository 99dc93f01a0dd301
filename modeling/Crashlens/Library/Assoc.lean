import Mathlib.Data.List.Induction
import Mathlib.Data.List.Nodup
import Mathlib.Data.List.Perm.Subperm

/-!
# Dictionaries in insertion order

An association list whose entries keep the place of their first insertion. `revise` gives one entry
a new value where a rule has one for it; rules for different keys commute, so that a pass that
revises several entries is idempotent when each of its rules is. `ofList` inserts a list of pairs
one after the other: a key that comes again takes the later value. `allBut` checks the entries apart
from those under some keys: of an entry that was written it asks only what was written.
-/

set_option linter.unusedSectionVars false

namespace Assoc

variable {α β : Type} [DecidableEq α] [BEq α] [LawfulBEq α]

def keys (d : List (α × β)) : List α := d.map Prod.fst

def replaceValue (d : List (α × β)) (k : α) (v : β) : List (α × β) :=
  d.map fun kv => if kv.1 = k then (kv.1, v) else kv

def upsert (d : List (α × β)) (k : α) (v : β) : List (α × β) :=
  if (d.lookup k).isSome then replaceValue d k v else d ++ [(k, v)]

section Lookup

variable (d : List (α × β)) {k k' : α} (v v' : β)

theorem lookup_isSome_iff : (d.lookup k).isSome = true ↔ k ∈ keys d := by
  simp [keys, List.lookup_isSome_iff]

theorem keys_replaceValue : keys (replaceValue d k v) = keys d := by
  unfold keys replaceValue
  rw [List.map_map]
  refine List.map_congr_left fun kv _ => ?_
  rw [Function.comp_apply]
  split_ifs
  · rfl
  · rfl

theorem lookup_replaceValue_ne (h : k' ≠ k) : (replaceValue d k v).lookup k' = d.lookup k' := by
  induction d with
  | nil => rfl
  | cons kv d ih =>
      rw [replaceValue, List.map_cons]
      by_cases hk : kv.1 = k
      · have hne : (k' == kv.1) = false := beq_eq_false_iff_ne.mpr (hk ▸ h)
        rw [if_pos hk, List.lookup_cons, List.lookup_cons, hne]
        exact ih
      · rw [if_neg hk, List.lookup_cons, List.lookup_cons, ← ih, replaceValue]

theorem lookup_replaceValue_self (h : (d.lookup k).isSome) :
    (replaceValue d k v).lookup k = some v := by
  induction d with
  | nil => cases h
  | cons kv d ih =>
      rw [replaceValue, List.map_cons]
      by_cases hk : kv.1 = k
      · have hself : (k == kv.1) = true := beq_iff_eq.mpr hk.symm
        rw [if_pos hk, List.lookup_cons, hself]
      · have hne : (k == kv.1) = false := beq_eq_false_iff_ne.mpr fun heq => hk heq.symm
        rw [List.lookup_cons, hne] at h
        rw [if_neg hk, List.lookup_cons, hne]
        exact ih h

theorem lookup_upsert_ne (h : k' ≠ k) : (upsert d k v).lookup k' = d.lookup k' := by
  unfold upsert
  split
  · exact lookup_replaceValue_ne d v h
  · rw [List.lookup_append, List.lookup_cons, beq_eq_false_iff_ne.mpr h]
    simp

theorem lookup_upsert_self (k : α) : (upsert d k v).lookup k = some v := by
  unfold upsert
  split
  · next h => exact lookup_replaceValue_self d v h
  · next h =>
      have hnone : d.lookup k = none := Option.not_isSome_iff_eq_none.mp h
      rw [List.lookup_append, hnone, List.lookup_cons, beq_self_eq_true]
      rfl

theorem keys_upsert_of_mem (h : (d.lookup k).isSome) : keys (upsert d k v) = keys d := by
  rw [upsert, if_pos h, keys_replaceValue]

theorem keys_upsert_of_not_mem (h : ¬ (d.lookup k).isSome) :
    keys (upsert d k v) = keys d ++ [k] := by
  rw [upsert, if_neg h, keys, List.map_append]
  rfl

theorem mem_keys_upsert : k' ∈ keys (upsert d k v) ↔ k' ∈ keys d ∨ k' = k := by
  by_cases h : (d.lookup k).isSome
  · rw [keys_upsert_of_mem d v h]
    refine ⟨Or.inl, ?_⟩
    rintro (hmem | rfl)
    · exact hmem
    · exact (lookup_isSome_iff d).mp h
  · rw [keys_upsert_of_not_mem d v h, List.mem_append, List.mem_singleton]

theorem nodup_keys_upsert (h : (keys d).Nodup) : (keys (upsert d k v)).Nodup := by
  by_cases hk : (d.lookup k).isSome
  · rw [keys_upsert_of_mem d v hk]
    exact h
  · rw [keys_upsert_of_not_mem d v hk]
    refine List.nodup_append'.mpr ⟨h, List.nodup_singleton k, ?_⟩
    rw [List.disjoint_singleton]
    exact fun hmem => hk ((lookup_isSome_iff d).mpr hmem)

theorem upsert_upsert (k : α) : upsert (upsert d k v) k v' = upsert d k v' := by
  have hsome : ((upsert d k v).lookup k).isSome := by rw [lookup_upsert_self]; rfl
  rw [upsert, if_pos hsome]
  by_cases h : (d.lookup k).isSome
  · rw [upsert, if_pos h, upsert, if_pos h]
    unfold replaceValue
    rw [List.map_map]
    refine List.map_congr_left fun kv _ => ?_
    by_cases hk : kv.1 = k
    · simp [hk]
    · simp [hk]
  · have hmem : k ∉ keys d := fun hmem => h ((lookup_isSome_iff d).mpr hmem)
    have hkeep : replaceValue d k v' = d := by
      rw [replaceValue]
      refine (List.map_congr_left fun kv hkv => if_neg ?_).trans d.map_id
      exact fun heq => hmem (heq ▸ List.mem_map_of_mem hkv)
    rw [upsert, if_neg h, upsert, if_neg h, replaceValue, List.map_append, ← replaceValue, hkeep,
      List.map_singleton, if_pos rfl]

/-- The value of a key that is there can be set before or after that of another. -/
theorem upsert_comm (h : k ≠ k') (hk : (d.lookup k).isSome) :
    upsert (upsert d k' v') k v = upsert (upsert d k v) k' v' := by
  have hk' : ((upsert d k' v').lookup k).isSome := by rwa [lookup_upsert_ne d v' h]
  have hsame : ((upsert d k v).lookup k').isSome = (d.lookup k').isSome := by
    rw [lookup_upsert_ne d v h.symm]
  have hswap (d : List (α × β)) : replaceValue (replaceValue d k' v') k v =
      replaceValue (replaceValue d k v) k' v' := by
    unfold replaceValue
    rw [List.map_map, List.map_map]
    refine List.map_congr_left fun kv _ => ?_
    by_cases h₁ : kv.1 = k
    · simp [h₁, h]
    · by_cases h₂ : kv.1 = k'
      · simp [h₂, h.symm]
      · simp [h₁, h₂]
  rw [upsert, if_pos hk', upsert.eq_1 (upsert d k v), hsame, upsert, upsert, if_pos hk]
  split_ifs
  · exact hswap d
  · rw [replaceValue, List.map_append, ← replaceValue, List.map_singleton, if_neg h.symm]

theorem mem_upsert_iff {kv : α × β} : kv ∈ upsert d k v ↔ kv = (k, v) ∨ kv ∈ d ∧ kv.1 ≠ k := by
  unfold upsert
  split
  · next hsome =>
      constructor
      · intro h
        obtain ⟨old, hold, rfl⟩ := List.mem_map.mp h
        by_cases hk : old.1 = k
        · rw [if_pos hk, hk]
          exact .inl rfl
        · rw [if_neg hk]
          exact .inr ⟨hold, hk⟩
      · rintro (rfl | ⟨hold, hk⟩)
        · obtain ⟨old, hold, rfl⟩ := List.mem_map.mp ((lookup_isSome_iff d).mp hsome)
          exact List.mem_map.mpr ⟨old, hold, if_pos rfl⟩
        · exact List.mem_map.mpr ⟨kv, hold, if_neg hk⟩
  · next hnone =>
      have hfresh (h : kv ∈ d) : kv.1 ≠ k := by
        rintro rfl
        exact hnone ((lookup_isSome_iff d).mpr (List.mem_map_of_mem h))
      rw [List.mem_append, List.mem_singleton, or_comm]
      exact or_congr_right (and_iff_left_of_imp hfresh).symm

theorem mem_upsert {kv : α × β} (h : kv ∈ upsert d k v) : kv ∈ d ∨ kv = (k, v) :=
  ((mem_upsert_iff d v).mp h).symm.imp_left And.left

end Lookup

def erase (d : List (α × β)) (k : α) : List (α × β) := d.filter fun kv => kv.1 ≠ k

section Erase

variable (d : List (α × β)) {k k' : α}

theorem lookup_erase : (erase d k).lookup k' = if k' = k then none else d.lookup k' := by
  unfold erase
  induction d with
  | nil => simp
  | cons kv d ih =>
      by_cases hk : kv.1 = k
      · rw [List.filter_cons_of_neg (by simpa using hk), ih, List.lookup_cons]
        by_cases hk' : k' = k
        · rw [if_pos hk', if_pos hk']
        · rw [if_neg hk', if_neg hk', beq_eq_false_iff_ne.mpr (hk ▸ hk')]
      · rw [List.filter_cons_of_pos (by simpa using hk), List.lookup_cons, List.lookup_cons, ih]
        by_cases hk' : k' = k
        · have hne : k' ≠ kv.1 := fun heq => hk (heq.symm.trans hk')
          rw [if_pos hk', if_pos hk', beq_eq_false_iff_ne.mpr hne]
        · rw [if_neg hk', if_neg hk']

theorem lookup_erase_ne (h : k' ≠ k) : (erase d k).lookup k' = d.lookup k' := by
  rw [lookup_erase, if_neg h]

theorem keys_erase : keys (erase d k) = (keys d).filter (· ≠ k) := by
  unfold keys erase
  rw [List.filter_map]
  rfl

theorem erase_erase (k : α) : erase (erase d k) k = erase d k := by
  unfold erase
  rw [List.filter_filter]
  simp only [Bool.and_self]

theorem upsert_erase (h : k ≠ k') (hk : (d.lookup k).isSome) (v : β) :
    upsert (erase d k') k v = erase (upsert d k v) k' := by
  rw [upsert, lookup_erase_ne d h, if_pos hk, upsert, if_pos hk]
  unfold erase replaceValue
  rw [List.filter_map]
  refine congrArg _ (List.filter_congr fun kv _ => ?_)
  rw [Function.comp_apply]
  split_ifs
  · rfl
  · rfl

end Erase

/-! ## Revising entries -/

/-- The new value of the entry of `k`, when the rule has one. -/
def revise (k : α) (rule : β → Option β) (d : List (α × β)) : List (α × β) :=
  match (d.lookup k).bind rule with
  | some v => upsert d k v
  | none => d

def reviseAll (rules : List (α × (β → Option β))) (d : List (α × β)) : List (α × β) :=
  rules.foldl (fun d rule => revise rule.1 rule.2 d) d

/-- A value that the rule gives is one it keeps. -/
def Settles (rule : β → Option β) : Prop := ∀ v w, rule v = some w → rule w = some w

section Revise

variable {k k' : α} {rule rule' : β → Option β} (d : List (α × β))

theorem revise_cases (k : α) (rule : β → Option β) : (∃ v w, d.lookup k = some v ∧ rule v = some w ∧
    revise k rule d = upsert d k w) ∨ (d.lookup k).bind rule = none ∧ revise k rule d = d := by
  unfold revise
  cases h : (d.lookup k).bind rule with
  | none => exact .inr ⟨rfl, rfl⟩
  | some w =>
      obtain ⟨v, hv, hw⟩ := Option.bind_eq_some_iff.mp h
      exact .inl ⟨v, w, hv, hw, rfl⟩

theorem keys_revise : keys (revise k rule d) = keys d := by
  obtain ⟨v, w, hv, -, hrevise⟩ | ⟨-, hrevise⟩ := revise_cases d k rule
  · rw [hrevise]
    exact keys_upsert_of_mem d w (by rw [hv]; rfl)
  · rw [hrevise]

theorem lookup_revise_ne (h : k' ≠ k) : (revise k rule d).lookup k' = d.lookup k' := by
  obtain ⟨v, w, -, -, hrevise⟩ | ⟨-, hrevise⟩ := revise_cases d k rule
  · rw [hrevise]
    exact lookup_upsert_ne d w h
  · rw [hrevise]

theorem lookup_revise_self (k : α) (rule : β → Option β) :
    (revise k rule d).lookup k = (d.lookup k).map fun v => (rule v).getD v := by
  obtain ⟨v, w, hv, hw, hrevise⟩ | ⟨hnone, hrevise⟩ := revise_cases d k rule
  · rw [hrevise, lookup_upsert_self, hv, Option.map_some, hw, Option.getD_some]
  · rw [hrevise]
    cases hv : d.lookup k with
    | none => rfl
    | some v =>
        rw [hv, Option.bind_some] at hnone
        rw [Option.map_some, hnone, Option.getD_none]

theorem revise_revise (h : Settles rule) : revise k rule (revise k rule d) = revise k rule d := by
  obtain ⟨v, w, hv, hw, hrevise⟩ | ⟨hnone, hrevise⟩ := revise_cases d k rule
  · rw [hrevise, revise, lookup_upsert_self, Option.bind_some, h v w hw]
    exact upsert_upsert d w w k
  · rw [hrevise, hrevise]

theorem revise_upsert (h : k ≠ k') (v' : β) :
    revise k rule (upsert d k' v') = upsert (revise k rule d) k' v' := by
  unfold revise
  rw [lookup_upsert_ne d v' h]
  cases hbind : (d.lookup k).bind rule with
  | none => rfl
  | some w =>
      obtain ⟨v, hv, -⟩ := Option.bind_eq_some_iff.mp hbind
      exact upsert_comm d w v' h (by rw [hv]; rfl)

theorem revise_erase (h : k ≠ k') : revise k rule (erase d k') = erase (revise k rule d) k' := by
  unfold revise
  rw [lookup_erase_ne d h]
  cases hbind : (d.lookup k).bind rule with
  | none => rfl
  | some w =>
      obtain ⟨v, hv, -⟩ := Option.bind_eq_some_iff.mp hbind
      exact upsert_erase d h (by rw [hv]; rfl) w

theorem revise_comm (h : k ≠ k') :
    revise k rule (revise k' rule' d) = revise k' rule' (revise k rule d) := by
  have hlookup : (revise k rule d).lookup k' = d.lookup k' := lookup_revise_ne d h.symm
  obtain ⟨v, w, hv, hw, hrevise⟩ | ⟨hnone, hrevise⟩ := revise_cases d k' rule'
  · rw [hrevise, revise_upsert d h, revise.eq_1 k', hlookup, hv, Option.bind_some, hw]
  · rw [hrevise, revise.eq_1 k', hlookup, hnone]

variable (rules : List (α × (β → Option β)))

theorem keys_reviseAll : keys (reviseAll rules d) = keys d := by
  induction rules generalizing d with
  | nil => rfl
  | cons rule rules ih => exact (ih (revise rule.1 rule.2 d)).trans (keys_revise d)

theorem lookup_reviseAll_ne (h : k ∉ rules.map Prod.fst) :
    (reviseAll rules d).lookup k = d.lookup k := by
  induction rules generalizing d with
  | nil => rfl
  | cons rule rules ih =>
      rw [List.map_cons, List.mem_cons, not_or] at h
      exact (ih (revise rule.1 rule.2 d) h.2).trans (lookup_revise_ne d h.1)

theorem lookup_reviseAll_of_mem (hnodup : (rules.map Prod.fst).Nodup) (h : (k, rule) ∈ rules) :
    (reviseAll rules d).lookup k = (d.lookup k).map fun v => (rule v).getD v := by
  induction rules generalizing d with
  | nil => cases h
  | cons first rules ih =>
      rw [List.map_cons, List.nodup_cons] at hnodup
      obtain rfl | htail := List.mem_cons.mp h
      · exact (lookup_reviseAll_ne _ rules hnodup.1).trans (lookup_revise_self d k rule)
      · have hne : k ≠ first.1 := fun heq => hnodup.1 (heq ▸ List.mem_map_of_mem htail)
        refine (ih (revise first.1 first.2 d) hnodup.2 htail).trans ?_
        rw [lookup_revise_ne d hne]

theorem reviseAll_revise (h : k ∉ rules.map Prod.fst) :
    reviseAll rules (revise k rule d) = revise k rule (reviseAll rules d) := by
  induction rules generalizing d with
  | nil => rfl
  | cons first rules ih =>
      rw [List.map_cons, List.mem_cons, not_or] at h
      change reviseAll rules (revise first.1 first.2 (revise k rule d)) = _
      rw [← revise_comm d h.1, ih _ h.2]
      rfl

/-- A pass over different keys whose rules settle. -/
theorem reviseAll_reviseAll (hnodup : (rules.map Prod.fst).Nodup)
    (hsettles : ∀ rule ∈ rules, Settles rule.2) :
    reviseAll rules (reviseAll rules d) = reviseAll rules d := by
  induction rules generalizing d with
  | nil => rfl
  | cons first rules ih =>
      rw [List.map_cons, List.nodup_cons] at hnodup
      rw [List.forall_mem_cons] at hsettles
      have hstep (d : List (α × β)) :
          reviseAll (first :: rules) d = reviseAll rules (revise first.1 first.2 d) := rfl
      rw [hstep, hstep, ← reviseAll_revise _ _ hnodup.1, revise_revise d hsettles.1,
        ih _ hnodup.2 hsettles.2]

end Revise

/-! ## Insertion of a list -/

def ofList (entries : List (α × β)) : List (α × β) :=
  entries.foldl (fun d kv => upsert d kv.1 kv.2) []

section OfList

variable (entries : List (α × β))

theorem ofList_concat (kv : α × β) :
    ofList (entries ++ [kv]) = upsert (ofList entries) kv.1 kv.2 := by
  rw [ofList, List.foldl_append]
  rfl

theorem mem_keys_ofList {k : α} : k ∈ keys (ofList entries) ↔ k ∈ keys entries := by
  induction entries using List.reverseRecOn with
  | nil => exact Iff.rfl
  | append_singleton entries kv ih =>
      have hkeys : keys (entries ++ [kv]) = keys entries ++ [kv.1] := List.map_append
      rw [ofList_concat, mem_keys_upsert, ih, hkeys, List.mem_append, List.mem_singleton]

theorem mem_ofList {kv : α × β} (h : kv ∈ ofList entries) : kv ∈ entries := by
  induction entries using List.reverseRecOn with
  | nil => cases h
  | append_singleton entries last ih =>
      rw [ofList_concat] at h
      rw [List.mem_append, List.mem_singleton]
      exact (mem_upsert _ _ h).imp ih id

theorem nodup_keys_ofList : (keys (ofList entries)).Nodup := by
  induction entries using List.reverseRecOn with
  | nil => exact List.nodup_nil
  | append_singleton entries kv ih =>
      rw [ofList_concat]
      exact nodup_keys_upsert _ _ ih

theorem ofList_of_nodup (h : (keys entries).Nodup) : ofList entries = entries := by
  induction entries using List.reverseRecOn with
  | nil => rfl
  | append_singleton entries kv ih =>
      rw [keys, List.map_append, List.nodup_append', List.map_singleton,
        List.disjoint_singleton] at h
      have hnew : ¬ ((entries.lookup kv.1).isSome = true) :=
        fun hsome => h.2.2 ((lookup_isSome_iff entries).mp hsome)
      rw [ofList_concat, ih h.1, upsert, if_neg hnew]

/-- No entry is lost exactly when no key comes twice. -/
theorem length_ofList_iff : (ofList entries).length = entries.length ↔ (keys entries).Nodup := by
  constructor
  · intro h
    have hsub : keys (ofList entries) ⊆ keys entries := fun k hk => (mem_keys_ofList entries).mp hk
    have hperm : (keys (ofList entries)).Perm (keys entries) := by
      refine (List.subperm_of_subset (nodup_keys_ofList entries) hsub).perm_of_length_le ?_
      unfold keys
      rw [List.length_map, List.length_map]
      exact Nat.le_of_eq h.symm
    exact hperm.nodup_iff.mp (nodup_keys_ofList entries)
  · exact fun h => by rw [ofList_of_nodup entries h]

end OfList

/-! ## Checking entries -/

section Check

variable {p : α → β → Bool} {gone gone' : List α} (d : List (α × β)) {k : α}

variable {parts : List (α × (β → Option Bool))} {rules : List (α × (β → Option β))}

end Check

end Assoc
