import Crashlens.AuditTrail

/-!
# The keys the audit guard reaches

`_check_data_safety` recurses into mappings and no further, so a key inside an array is recorded
unseen. What it does see it sees in order, and its error names the first secret-shaped key by its
path, unless it runs out of calls before.
-/

namespace Crashlens.Tenant

open Transactional

/-! ## Keys of audit data -/

/-- A key that the guard comes to, the path it names it by, and the calls it has left there. -/
structure Visit where
  key : PyStr
  fullPath : PyStr
  calls : ℕ

mutual

/-- The keys reached through objects only. -/
def guardedKeys (calls : ℕ) (path : PyStr) : Dict → List Visit
  | [] => []
  | (key, value) :: rest =>
    let fullPath := if path.isEmpty then key else path ++ py "." ++ key
    ⟨key, fullPath, calls⟩ ::
      (guardedKeysNested calls fullPath value ++ guardedKeys calls path rest)

def guardedKeysNested (calls : ℕ) (path : PyStr) : Json → List Visit
  | .obj fields => guardedKeys (calls - 1) path fields
  | _ => []

end

mutual

/-- How deep the objects with a key lie in each other outside every array. -/
def openDepth : Dict → ℕ
  | [] => 0
  | (_, value) :: rest => max (openDepthNested value + 1) (openDepth rest)

def openDepthNested : Json → ℕ
  | .obj fields => openDepth fields
  | _ => 0

end

mutual

/-- The keys outside every array. -/
def openKeys : Dict → List PyStr
  | [] => []
  | (key, value) :: rest => key :: (openKeysNested value ++ openKeys rest)

def openKeysNested : Json → List PyStr
  | .obj fields => openKeys fields
  | _ => []

end

mutual

/-- Every object key, at any depth. -/
def keysOf : Dict → List PyStr
  | [] => []
  | (key, value) :: rest => key :: (keysOfValue value ++ keysOf rest)

def keysOfValue : Json → List PyStr
  | .obj fields => keysOf fields
  | .arr items => keysOfItems items
  | _ => []

def keysOfItems : List Json → List PyStr
  | [] => []
  | item :: rest => keysOfValue item ++ keysOfItems rest

end

section Keys

mutual

theorem guardedKeys_key (calls : ℕ) (path : PyStr) : ∀ fields : Dict,
    (guardedKeys calls path fields).map Visit.key = openKeys fields
  | [] => rfl
  | (key, value) :: rest => by
      simp only [guardedKeys, openKeys, List.map_cons, List.map_append]
      rw [guardedKeysNested_key calls _ value, guardedKeys_key calls path rest]

theorem guardedKeysNested_key (calls : ℕ) (path : PyStr) : ∀ value : Json,
    (guardedKeysNested calls path value).map Visit.key = openKeysNested value
  | .obj fields => guardedKeys_key (calls - 1) path fields
  | .arr _ | .str _ | .float _ | .int _ | .bool _ | .null => rfl

end

mutual

/-- The guard comes to a key without a call left exactly in data deeper than its calls. -/
theorem guardedKeys_exhausted (calls : ℕ) (path : PyStr) : ∀ fields : Dict,
    (∃ visit ∈ guardedKeys calls path fields, visit.calls = 0) ↔ calls < openDepth fields
  | [] => by simp [guardedKeys, openDepth]
  | (key, value) :: rest => by
      have hnested := guardedKeysNested_exhausted calls
        (if path.isEmpty then key else path ++ py "." ++ key) value
      have hrest := guardedKeys_exhausted calls path rest
      simp only [guardedKeys, openDepth, List.exists_mem_cons_iff, List.mem_append, or_and_right,
        exists_or, hnested, hrest, lt_max_iff]
      omega

theorem guardedKeysNested_exhausted (calls : ℕ) (path : PyStr) : ∀ value : Json,
    (∃ visit ∈ guardedKeysNested calls path value, visit.calls = 0) ↔
      calls - 1 < openDepthNested value
  | .obj fields => guardedKeys_exhausted (calls - 1) path fields
  | .arr _ | .str _ | .float _ | .int _ | .bool _ | .null => by
      simp [guardedKeysNested, openDepthNested]

end

mutual

theorem openKeys_sublist : ∀ fields : Dict, (openKeys fields).Sublist (keysOf fields)
  | [] => List.Sublist.slnil
  | (_, value) :: rest =>
    ((openKeysNested_sublist value).append (openKeys_sublist rest)).cons_cons _

theorem openKeysNested_sublist : ∀ value : Json,
    (openKeysNested value).Sublist (keysOfValue value)
  | .obj fields => openKeys_sublist fields
  | .arr _ | .str _ | .float _ | .int _ | .bool _ | .null => List.nil_sublist _

end

end Keys

/-! ## The guard -/

section Guard

variable (lib : Libraries)

/-- What the guard raises where it has no call left or the key looks secret. -/
def Visit.stop (visit : Visit) : Option ServiceError :=
  if visit.calls = 0 then some (.python .recursionError)
  else if looksSecret lib visit.key then
    some (.unsafeAuditData (unsafeKeyMessage lib visit.fullPath))
  else none

/-- The verdict on the keys reached: the error is that of the first of them that stops the guard. -/
def verdict (visits : List Visit) : Except ServiceError Unit :=
  match visits.findSome? (Visit.stop lib) with
  | some e => .error e
  | none => .ok ()

theorem verdict_append (visits visits' : List Visit) :
    verdict lib (visits ++ visits') =
      (verdict lib visits).bind fun _ => verdict lib visits' := by
  simp only [verdict, List.findSome?_append]
  cases visits.findSome? (Visit.stop lib) <;> rfl

theorem verdict_cons_none {visit : Visit} {visits : List Visit} (h : visit.stop lib = none) :
    verdict lib (visit :: visits) = verdict lib visits := by
  simp only [verdict, List.findSome?_cons, h]

theorem verdict_cons_some {visit : Visit} {visits : List Visit} {e : ServiceError}
    (h : visit.stop lib = some e) : verdict lib (visit :: visits) = .error e := by
  simp only [verdict, List.findSome?_cons, h]

mutual

theorem checkDataSafety_eq (calls : ℕ) (path : PyStr) : ∀ fields : Dict,
    checkDataSafety lib calls path fields = verdict lib (guardedKeys calls path fields)
  | [] => rfl
  | (key, value) :: rest => by
      simp only [checkDataSafety, guardedKeys]
      generalize (if path.isEmpty then key else path ++ py "." ++ key) = fullPath
      have hstop : (Visit.mk key fullPath calls).stop lib = if calls = 0 then
          some (.python .recursionError) else if looksSecret lib key then
            some (.unsafeAuditData (unsafeKeyMessage lib fullPath)) else none := rfl
      split_ifs at hstop ⊢ with hcalls hsecret
      · exact (verdict_cons_some lib hstop).symm
      · exact (verdict_cons_some lib hstop).symm
      · rw [verdict_cons_none lib hstop, verdict_append, checkNested_eq calls fullPath value,
          checkDataSafety_eq calls path rest]
        cases verdict lib (guardedKeysNested calls fullPath value) <;> rfl

theorem checkNested_eq (calls : ℕ) (path : PyStr) : ∀ value : Json,
    checkNested lib calls path value = verdict lib (guardedKeysNested calls path value)
  | .obj fields => checkDataSafety_eq (calls - 1) path fields
  | .arr _ | .str _ | .float _ | .int _ | .bool _ | .null => rfl

end

variable (draw : Drawn) (orgId : ℕ) (actorUserId : Option ℕ) (action targetType : String)
  (targetId : Option PyStr) (data : Option Dict)

end Guard

end Crashlens.Tenant
