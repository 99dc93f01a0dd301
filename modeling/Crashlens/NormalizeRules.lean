import Crashlens.PayloadLimits

/-!
# Normalisation as rules for fields

Every pass of the normaliser revises fields: the value of a field is replaced where a rule has
another one for it, and the other fields, the keys and their order stay. No rule changes what it has
given, so that normalising twice is normalising once, and none has a value nested deeper than the
one it is given.
-/

namespace Crashlens

open Assoc

abbrev Rule := Json → Option Json

def truncateRule (limit : ℕ) : Rule
  | .str s => some (.str (truncateString s limit))
  | _ => none

def linesRule : Rule
  | .arr lines => some (.arr (lines.map (truncateIfStr contextLineMax)))
  | _ => none

def frameRules : List (PyStr × Rule) :=
  [(py "filename", truncateRule filenameMax), (py "function", truncateRule functionMax),
    (py "context_line", truncateRule contextLineMax), (py "pre_context", linesRule),
    (py "post_context", linesRule)]

def stackRule : Rule
  | .obj stacktrace =>
    match Dict.get stacktrace "frames" with
    | .arr frames => some (.obj (Dict.set stacktrace "frames"
        (.arr ((lastN maxFrames frames).map normalizeFrame))))
    | _ => none
  | _ => none

def tagsRule : Rule
  | .obj tags => some (.obj (normalizeTags tags))
  | _ => none

def breadcrumbsRule : Rule
  | .arr breadcrumbs => some (.arr (lastN maxBreadcrumbs breadcrumbs))
  | _ => none

def exceptionRule : Rule
  | .obj exception => some (.obj (normalizeException (maxCauseDepth - 1) exception))
  | _ => none

def envelopeRules : List (PyStr × Rule) :=
  [(py "message", truncateRule messageMax), (py "tags", tagsRule),
    (py "breadcrumbs", breadcrumbsRule), (py "exception", exceptionRule)]

/-! ## The passes -/

section Passes

variable {rule : Rule} (d : Dict)

theorem bind_lookup {β : Type} {f : Json → Option β} (hnull : f .null = none) (key : String) :
    (d.lookup (py key)).bind f = f (d.get key) := by
  unfold Dict.get
  cases d.lookup (py key) with
  | none => exact hnull.symm
  | some v => rfl

theorem revise_eq (hnull : rule .null = none) (key : String) :
    revise (py key) rule d =
      match rule (d.get key) with
      | some v => d.set key v
      | none => d := by
  rw [revise, bind_lookup d hnull]
  cases rule (d.get key) with
  | _ => rfl

theorem get_revise_self (hnull : rule .null = none) (key : String) :
    Dict.get (revise (py key) rule d) key = (rule (d.get key)).getD (d.get key) := by
  rw [revise_eq d hnull]
  cases rule (d.get key) with
  | none => rfl
  | some v => exact Dict.get_set_self d key v

theorem get_revise_ne {key : String} {k : PyStr} (h : py key ≠ k) :
    Dict.get (revise k rule d) key = d.get key := by
  unfold Dict.get
  rw [lookup_revise_ne d h]

theorem truncateField_eq (key : String) (limit : ℕ) :
    truncateField key limit d = revise (py key) (truncateRule limit) d := by
  rw [revise_eq d rfl, truncateField]
  cases d.get key with
  | _ => rfl

theorem truncateLines_eq (key : String) :
    truncateLines key d = revise (py key) linesRule d := by
  rw [revise_eq d rfl, truncateLines]
  cases d.get key with
  | _ => rfl

theorem normalizeFrame_obj : normalizeFrame (.obj d) = .obj (reviseAll frameRules d) := by
  rw [normalizeFrame, truncateField_eq, truncateField_eq, truncateField_eq, truncateLines_eq,
    truncateLines_eq]
  rfl

theorem capFrames_eq : capFrames d = revise (py "stacktrace") stackRule d := by
  rw [revise_eq d rfl, capFrames]
  cases d.get "stacktrace" with
  | obj stacktrace =>
      dsimp only [stackRule]
      cases Dict.get stacktrace "frames" with
      | _ => rfl
  | _ => rfl

theorem capEnvelope_eq : capEnvelope d = reviseAll envelopeRules d := by
  have htags (d : Dict) : capTags d = revise (py "tags") tagsRule d := by
    rw [revise_eq d rfl, capTags]
    cases d.get "tags" with
    | _ => rfl
  have hbreadcrumbs (d : Dict) :
      capBreadcrumbs d = revise (py "breadcrumbs") breadcrumbsRule d := by
    rw [revise_eq d rfl, capBreadcrumbs]
    cases d.get "breadcrumbs" with
    | _ => rfl
  have hexception (d : Dict) : capException d = revise (py "exception") exceptionRule d := by
    rw [revise_eq d rfl, capException]
    cases d.get "exception" with
    | _ => rfl
  rw [capEnvelope, truncateField_eq, htags, hbreadcrumbs, hexception]
  rfl

/-- A comprehension inserts one tag after the other. -/
def truncateTag (tag : PyStr × Json) : PyStr × Json :=
  (truncateString tag.1 tagKeyMax, truncateIfStr tagValueMax tag.2)

theorem normalizeTags_eq (tags : Dict) : normalizeTags tags = ofList (tags.map truncateTag) := by
  have hreplace (out : Dict) (k : PyStr) (v : Json) :
      (out.map fun old => if old.1 = k then (k, v) else old) = replaceValue out k v := by
    refine List.map_congr_left fun old _ => ?_
    by_cases hk : old.1 = k
    · rw [if_pos hk, if_pos hk, hk]
    · rw [if_neg hk, if_neg hk]
  rw [ofList, List.foldl_map, normalizeTags]
  dsimp only
  simp only [hreplace]
  rfl

end Passes

/-! ## Nothing gets deeper -/

section Depth

variable {leaf n : ℕ} {d : Dict}

theorem depthItems_le_iff {xs : List Json} :
    Json.depthItems leaf xs ≤ n ↔ ∀ x ∈ xs, x.depth leaf ≤ n := by
  induction xs with
  | nil => simp [Json.depthItems]
  | cons x xs ih => rw [Json.depthItems, max_le_iff, List.forall_mem_cons, ih]

theorem depthFields_le_iff : Json.depthFields leaf d ≤ n ↔ ∀ kv ∈ d, kv.2.depth leaf ≤ n := by
  induction d with
  | nil => simp [Json.depthFields]
  | cons kv d ih => rw [Json.depthFields, max_le_iff, List.forall_mem_cons, ih]

theorem depth_le_of_mem {kv : PyStr × Json} (h : kv ∈ d) :
    kv.2.depth leaf ≤ Json.depthFields leaf d := depthFields_le_iff.mp le_rfl kv h

theorem depth_lookup_le {k : PyStr} {v : Json} (h : d.lookup k = some v) :
    v.depth leaf ≤ Json.depthFields leaf d := by
  obtain ⟨l₁, l₂, rfl, -⟩ := List.lookup_eq_some_iff.mp h
  have hmem : (k, v) ∈ l₁ ++ (k, v) :: l₂ := by simp
  exact depth_le_of_mem hmem

theorem depth_get_le {key : String} (h : d.get key ≠ .null) :
    (d.get key).depth leaf ≤ Json.depthFields leaf d := by
  unfold Dict.get at h ⊢
  cases hlookup : d.lookup (py key) with
  | none =>
      rw [hlookup] at h
      exact absurd rfl h
  | some v => exact depth_lookup_le hlookup

theorem depthFields_set_le {key : String} {v : Json} (hd : Json.depthFields leaf d ≤ n)
    (hv : v.depth leaf ≤ n) : Json.depthFields leaf (d.set key v) ≤ n := by
  refine depthFields_le_iff.mpr fun kv hkv => ?_
  rcases mem_upsert _ _ hkv with hold | rfl
  · exact depthFields_le_iff.mp hd kv hold
  · exact hv

theorem depthFields_pop_le (key : String) :
    Json.depthFields leaf (d.pop key) ≤ Json.depthFields leaf d :=
  depthFields_le_iff.mpr fun _ hkv => depth_le_of_mem (List.mem_of_mem_filter hkv)

/-- The rule has no value nested deeper than the one it is given. -/
def Shallows (leaf : ℕ) (rule : Rule) : Prop :=
  ∀ v w, rule v = some w → w.depth leaf ≤ v.depth leaf

theorem depthFields_revise_le {rule : Rule} (h : Shallows leaf rule) (k : PyStr) (d : Dict) :
    Json.depthFields leaf (revise k rule d) ≤ Json.depthFields leaf d := by
  obtain ⟨v, w, hv, hw, hrevise⟩ | ⟨-, hsame⟩ := revise_cases (d := d) k rule
  · rw [hrevise]
    refine depthFields_le_iff.mpr fun kv hkv => ?_
    rcases mem_upsert _ _ hkv with hold | rfl
    · exact depth_le_of_mem hold
    · exact (h v w hw).trans (depth_lookup_le hv)
  · rw [hsame]

theorem depthFields_reviseAll_le {rules : List (PyStr × Rule)}
    (h : ∀ rule ∈ rules, Shallows leaf rule.2) (d : Dict) :
    Json.depthFields leaf (reviseAll rules d) ≤ Json.depthFields leaf d := by
  induction rules generalizing d with
  | nil => exact le_rfl
  | cons rule rules ih =>
      rw [List.forall_mem_cons] at h
      exact (ih h.2 _).trans (depthFields_revise_le h.1 rule.1 d)

theorem truncateIfStr_depth (limit : ℕ) (v : Json) :
    (truncateIfStr limit v).depth leaf = v.depth leaf := by
  cases v with
  | _ => rfl

theorem shallows_truncateRule (limit : ℕ) : Shallows leaf (truncateRule limit) := by
  intro v w hw
  cases v with
  | str s =>
      cases hw
      exact le_rfl
  | _ => cases hw

theorem shallows_linesRule : Shallows leaf linesRule := by
  intro v w hw
  cases v with
  | arr lines =>
      cases hw
      refine Nat.succ_le_succ (depthItems_le_iff.mpr fun line hline => ?_)
      obtain ⟨raw, hraw, rfl⟩ := List.mem_map.mp hline
      rw [truncateIfStr_depth]
      exact depthItems_le_iff.mp le_rfl raw hraw
  | _ => cases hw

theorem normalizeFrame_depth_le (frame : Json) :
    (normalizeFrame frame).depth leaf ≤ frame.depth leaf := by
  cases frame with
  | obj frame =>
      rw [normalizeFrame_obj]
      refine Nat.succ_le_succ (depthFields_reviseAll_le ?_ frame)
      simp only [frameRules, List.forall_mem_cons]
      exact ⟨shallows_truncateRule _, shallows_truncateRule _, shallows_truncateRule _,
        shallows_linesRule, shallows_linesRule, fun _ h => nomatch h⟩
  | _ => exact le_rfl

theorem mem_of_mem_lastN {α : Type} {n : ℕ} {xs : List α} {x : α} (h : x ∈ lastN n xs) : x ∈ xs :=
  List.mem_of_mem_drop h

theorem shallows_stackRule : Shallows leaf stackRule := by
  intro v w hw
  cases v with
  | obj stacktrace =>
      rw [stackRule] at hw
      cases hframes : Dict.get stacktrace "frames" with
      | arr frames =>
          rw [hframes] at hw
          cases hw
          have hdepth : (Json.arr frames).depth leaf ≤ Json.depthFields leaf stacktrace :=
            hframes ▸ depth_get_le (hframes ▸ Json.noConfusion)
          refine Nat.succ_le_succ (depthFields_set_le le_rfl (le_trans ?_ hdepth))
          refine Nat.succ_le_succ (depthItems_le_iff.mpr fun frame hframe => ?_)
          obtain ⟨raw, hraw, rfl⟩ := List.mem_map.mp hframe
          exact (normalizeFrame_depth_le raw).trans
            (depthItems_le_iff.mp le_rfl raw (mem_of_mem_lastN hraw))
      | _ =>
          rw [hframes] at hw
          cases hw
  | _ => cases hw

theorem capFrames_depth_le (d : Dict) :
    Json.depthFields leaf (capFrames d) ≤ Json.depthFields leaf d := by
  rw [capFrames_eq]
  exact depthFields_revise_le shallows_stackRule _ d

theorem normalizeException_depth_le (left : ℕ) (d : Dict) :
    Json.depthFields leaf (normalizeException left d) ≤ Json.depthFields leaf d := by
  have hlast (d : Dict) : Json.depthFields leaf ((capFrames d).pop "cause") ≤
      Json.depthFields leaf d := (depthFields_pop_le _).trans (capFrames_depth_le d)
  induction left generalizing d with
  | zero => exact hlast d
  | succ left ih =>
      by_cases hcause : ∃ cause, d.get "cause" = .obj cause
      · obtain ⟨cause, hcause⟩ := hcause
        rw [normalizeException_cause left hcause]
        refine depthFields_set_le (capFrames_depth_le d) ?_
        have hdepth : (Json.obj cause).depth leaf ≤ Json.depthFields leaf d :=
          hcause ▸ depth_get_le (hcause ▸ Json.noConfusion)
        exact (Nat.succ_le_succ (ih cause)).trans hdepth
      · have hroot (cause : Dict) : d.get "cause" ≠ .obj cause := fun h => hcause ⟨cause, h⟩
        rw [normalizeException_last (.inr hroot)]
        exact hlast d

theorem shallows_exceptionRule : Shallows leaf exceptionRule := by
  intro v w hw
  cases v with
  | obj exception =>
      cases hw
      exact Nat.succ_le_succ (normalizeException_depth_le _ exception)
  | _ => cases hw

theorem shallows_tagsRule : Shallows leaf tagsRule := by
  intro v w hw
  cases v with
  | obj tags =>
      cases hw
      rw [normalizeTags_eq]
      refine Nat.succ_le_succ (depthFields_le_iff.mpr fun tag htag => ?_)
      obtain ⟨raw, hraw, rfl⟩ := List.mem_map.mp (mem_ofList _ htag)
      exact (truncateIfStr_depth _ _).trans_le (depth_le_of_mem hraw)
  | _ => cases hw

theorem shallows_breadcrumbsRule : Shallows leaf breadcrumbsRule := by
  intro v w hw
  cases v with
  | arr breadcrumbs =>
      cases hw
      exact Nat.succ_le_succ (depthItems_le_iff.mpr fun b hb =>
        depthItems_le_iff.mp le_rfl b (mem_of_mem_lastN hb))
  | _ => cases hw

theorem capEnvelope_depth_le (envelope : Dict) :
    Json.depthFields leaf (capEnvelope envelope) ≤ Json.depthFields leaf envelope := by
  rw [capEnvelope_eq]
  refine depthFields_reviseAll_le ?_ envelope
  simp only [envelopeRules, List.forall_mem_cons]
  exact ⟨shallows_truncateRule _, shallows_tagsRule, shallows_breadcrumbsRule,
    shallows_exceptionRule, fun _ h => nomatch h⟩

/-- What was copied once can be copied again. -/
theorem copyable_capEnvelope {rt : Runtime} {envelope : Dict} (h : Copyable rt envelope) :
    Copyable rt (capEnvelope envelope) := by
  have hdepth : Json.depthFields 1 (capEnvelope envelope) ≤ Json.depthFields 1 envelope :=
    capEnvelope_depth_le envelope
  unfold Copyable at h ⊢
  rw [Json.depth] at h ⊢
  omega

end Depth

/-! ## Nothing is changed twice -/

section Idempotence

theorem truncateString_of_le {s : PyStr} {limit : ℕ} (h : s.length ≤ limit) :
    truncateString s limit = s := if_pos h

theorem truncateString_truncateString (s : PyStr) {limit : ℕ}
    (h : truncationMarker.length ≤ limit) :
    truncateString (truncateString s limit) limit = truncateString s limit :=
  truncateString_of_le (truncateString_length s h)

theorem truncateIfStr_truncateIfStr (v : Json) {limit : ℕ} (h : truncationMarker.length ≤ limit) :
    truncateIfStr limit (truncateIfStr limit v) = truncateIfStr limit v := by
  cases v with
  | str s => exact congrArg Json.str (truncateString_truncateString s h)
  | _ => rfl

theorem settles_truncateRule {limit : ℕ} (h : truncationMarker.length ≤ limit) :
    Settles (truncateRule limit) := by
  intro v w hw
  cases v with
  | str s =>
      cases hw
      rw [truncateRule, truncateString_truncateString s h]
  | _ => cases hw

theorem settles_linesRule : Settles linesRule := by
  intro v w hw
  cases v with
  | arr lines =>
      cases hw
      rw [linesRule, List.map_map]
      refine congrArg (fun lines => some (Json.arr lines)) (List.map_congr_left fun line _ => ?_)
      exact truncateIfStr_truncateIfStr line (by decide)
  | _ => cases hw

theorem normalizeFrame_normalizeFrame (frame : Json) :
    normalizeFrame (normalizeFrame frame) = normalizeFrame frame := by
  cases frame with
  | obj frame =>
      rw [normalizeFrame_obj, normalizeFrame_obj, reviseAll_reviseAll _ _ (by decide)]
      simp only [frameRules, List.forall_mem_cons]
      exact ⟨settles_truncateRule (by decide), settles_truncateRule (by decide),
        settles_truncateRule (by decide), settles_linesRule, settles_linesRule,
        fun _ h => nomatch h⟩
  | _ => rfl

theorem lastN_of_le {α : Type} {n : ℕ} {xs : List α} (h : xs.length ≤ n) : lastN n xs = xs := by
  rw [lastN, Nat.sub_eq_zero_of_le h, List.drop_zero]

theorem lastN_map {α β : Type} (n : ℕ) (f : α → β) (xs : List α) :
    lastN n (xs.map f) = (lastN n xs).map f := by
  rw [lastN, lastN, List.length_map, List.map_drop]

theorem settles_stackRule : Settles stackRule := by
  intro v w hw
  cases v with
  | obj stacktrace =>
      rw [stackRule] at hw
      cases hframes : Dict.get stacktrace "frames" with
      | arr frames =>
          rw [hframes] at hw
          cases hw
          have hsame : normalizeFrame ∘ normalizeFrame = normalizeFrame :=
            funext normalizeFrame_normalizeFrame
          rw [stackRule, Dict.get_set_self]
          dsimp only
          rw [lastN_map, lastN_of_le (lastN_length maxFrames frames), List.map_map, hsame,
            Dict.set_eq_upsert, Dict.set_eq_upsert, upsert_upsert]
      | _ =>
          rw [hframes] at hw
          cases hw
  | _ => cases hw

theorem capFrames_capFrames (d : Dict) : capFrames (capFrames d) = capFrames d := by
  rw [capFrames_eq, capFrames_eq, revise_revise d settles_stackRule]

theorem capFrames_pop (d : Dict) : capFrames (d.pop "cause") = (capFrames d).pop "cause" := by
  have hne : py "stacktrace" ≠ py "cause" := by decide
  rw [capFrames_eq, capFrames_eq]
  exact revise_erase d hne

theorem capFrames_set (d : Dict) (v : Json) :
    capFrames (d.set "cause" v) = (capFrames d).set "cause" v := by
  have hne : py "stacktrace" ≠ py "cause" := by decide
  rw [capFrames_eq, capFrames_eq]
  exact revise_upsert d hne v

theorem normalizeException_normalizeException (left : ℕ) (d : Dict) :
    normalizeException left (normalizeException left d) = normalizeException left d := by
  have hlast (left : ℕ) (d : Dict) : normalizeException left ((capFrames d).pop "cause") =
      (capFrames d).pop "cause" := by
    rw [normalizeException_last (.inr (get_pop_cause_ne _)), capFrames_pop, capFrames_capFrames]
    exact erase_erase _ _
  induction left generalizing d with
  | zero => exact hlast 0 d
  | succ left ih =>
      by_cases hcause : ∃ cause, d.get "cause" = .obj cause
      · obtain ⟨cause, hcause⟩ := hcause
        rw [normalizeException_cause left hcause,
          normalizeException_cause left (Dict.get_set_self ..), ih cause, capFrames_set,
          capFrames_capFrames]
        exact upsert_upsert ..
      · have hroot (cause : Dict) : d.get "cause" ≠ .obj cause := fun h => hcause ⟨cause, h⟩
        rw [normalizeException_last (.inr hroot)]
        exact hlast (left + 1) d

theorem truncateTag_truncateTag (tag : PyStr × Json) :
    truncateTag (truncateTag tag) = truncateTag tag := by
  have hkey := truncateString_truncateString tag.1 (by decide : truncationMarker.length ≤ tagKeyMax)
  have hvalue := truncateIfStr_truncateIfStr tag.2
    (by decide : truncationMarker.length ≤ tagValueMax)
  exact Prod.ext hkey hvalue

theorem normalizeTags_normalizeTags (tags : Dict) :
    normalizeTags (normalizeTags tags) = normalizeTags tags := by
  rw [normalizeTags_eq, normalizeTags_eq]
  have hsame : (ofList (tags.map truncateTag)).map truncateTag = ofList (tags.map truncateTag) := by
    refine (List.map_congr_left fun tag' htag' => ?_).trans (List.map_id _)
    obtain ⟨tag, -, rfl⟩ := List.mem_map.mp (mem_ofList _ htag')
    exact truncateTag_truncateTag tag
  rw [hsame]
  exact ofList_of_nodup _ (nodup_keys_ofList _)

theorem settles_exceptionRule : Settles exceptionRule := by
  intro v w hw
  cases v with
  | obj exception =>
      cases hw
      rw [exceptionRule, normalizeException_normalizeException]
  | _ => cases hw

theorem settles_tagsRule : Settles tagsRule := by
  intro v w hw
  cases v with
  | obj tags =>
      cases hw
      rw [tagsRule, normalizeTags_normalizeTags]
  | _ => cases hw

theorem settles_breadcrumbsRule : Settles breadcrumbsRule := by
  intro v w hw
  cases v with
  | arr breadcrumbs =>
      cases hw
      rw [breadcrumbsRule, lastN_of_le (lastN_length maxBreadcrumbs breadcrumbs)]
  | _ => cases hw

/-- Normalising a normalised envelope changes nothing. -/
theorem capEnvelope_capEnvelope (envelope : Dict) :
    capEnvelope (capEnvelope envelope) = capEnvelope envelope := by
  rw [capEnvelope_eq, capEnvelope_eq, reviseAll_reviseAll _ _ (by decide)]
  simp only [envelopeRules, List.forall_mem_cons]
  exact ⟨settles_truncateRule (by decide), settles_tagsRule, settles_breadcrumbsRule,
    settles_exceptionRule, fun _ h => nomatch h⟩

end Idempotence

end Crashlens
