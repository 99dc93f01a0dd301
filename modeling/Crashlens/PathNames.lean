import Crashlens.Sourcemaps
import Mathlib.Data.List.TakeWhile

/-!
# File names out of uploaded names and frame URLs

The last segment of a name, the part of a URL before its query and fragment, and what
`safe_basename` lets through.
-/

namespace Crashlens

/-! ## Splitting -/

section Split

variable {sep : CodePoint}

theorem splitOn_ne_nil (s : PyStr) : splitOn sep s ≠ [] := by
  cases s with
  | nil => exact List.cons_ne_nil _ _
  | cons c cs =>
      rw [splitOn]
      split_ifs
      · exact List.cons_ne_nil _ _
      · split
        · exact List.cons_ne_nil _ _
        · exact List.cons_ne_nil _ _

theorem splitOn_of_not_mem {s : PyStr} (h : sep ∉ s) : splitOn sep s = [s] := by
  induction s with
  | nil => rfl
  | cons c cs ih =>
      rw [List.mem_cons, not_or] at h
      rw [splitOn, if_neg (Ne.symm h.1), ih h.2]

/-- `s.split(sep, 1)[0]` -/
theorem splitOn_headD (s : PyStr) : (splitOn sep s).headD [] = s.takeWhile fun c => c ≠ sep := by
  induction s with
  | nil => rfl
  | cons c cs ih =>
      rw [splitOn]
      by_cases hc : c = sep
      · rw [if_pos hc, List.takeWhile_cons_of_neg (by simpa using hc)]
        rfl
      · rw [if_neg hc, List.takeWhile_cons_of_pos (by simpa using hc), ← ih]
        cases hsplit : splitOn sep cs with
        | nil => exact absurd hsplit (splitOn_ne_nil cs)
        | cons part parts => rfl

theorem splitOn_append (a b : PyStr) :
    splitOn sep (a ++ sep :: b) = splitOn sep a ++ splitOn sep b := by
  induction a with
  | nil =>
      rw [List.nil_append]
      conv_lhs => rw [splitOn, if_pos rfl]
      rfl
  | cons c cs ih =>
      rw [List.cons_append, splitOn, splitOn, ih]
      split_ifs
      · rfl
      · cases hsplit : splitOn sep cs with
        | nil => exact absurd hsplit (splitOn_ne_nil cs)
        | cons part parts => rfl

end Split

/-! ## The last segment -/

section Basename

theorem osPathBasename_of_not_mem {s : PyStr} (h : slash ∉ s) : osPathBasename s = s := by
  rw [osPathBasename, splitOn_of_not_mem h]
  rfl

theorem osPathBasename_append_slash (a b : PyStr) :
    osPathBasename (a ++ slash :: b) = osPathBasename b := by
  rw [osPathBasename, splitOn_append, List.getLast?_append_of_ne_nil _ (splitOn_ne_nil b),
    osPathBasename]

/-- A path without a slash, or one after what is before a slash. -/
theorem segment_induction {P : PyStr → Prop} (hname : ∀ s, slash ∉ s → P s)
    (hpath : ∀ a b, P b → P (a ++ slash :: b)) (s : PyStr) : P s := by
  by_cases h : slash ∈ s
  · obtain ⟨a, b, hab⟩ := List.append_of_mem h
    rw [hab]
    exact hpath a b (segment_induction hname hpath b)
  · exact hname s h
termination_by s.length
decreasing_by
  rw [hab, List.length_append, List.length_cons]
  omega

theorem slash_notMem_osPathBasename (s : PyStr) : slash ∉ osPathBasename s := by
  induction s using segment_induction with
  | hname s h => rwa [osPathBasename_of_not_mem h]
  | hpath a b ih => rwa [osPathBasename_append_slash]

theorem osPathBasename_append {b : PyStr} (h : slash ∉ b) (a : PyStr) :
    osPathBasename (a ++ b) = osPathBasename a ++ b := by
  induction a using segment_induction with
  | hname a ha =>
      rw [osPathBasename_of_not_mem ha, osPathBasename_of_not_mem]
      exact fun hmem => (List.mem_append.mp hmem).elim ha h
  | hpath a a' ih =>
      rw [List.append_assoc, List.cons_append, osPathBasename_append_slash, ih,
        osPathBasename_append_slash]

theorem containsSub_append (pattern a : PyStr) {b : PyStr} (h : containsSub pattern b = true) :
    containsSub pattern (a ++ b) = true := by
  induction a with
  | nil => exact h
  | cons c cs ih => rw [List.cons_append, containsSub, ih, Bool.or_true]

end Basename

/-! ## File names -/

def backslash : CodePoint := CodePoint.ofNat 0x5C

def nul : CodePoint := CodePoint.ofNat 0

/-- A component that names a file of the directory it is joined to. -/
structure FileName (name : PyStr) : Prop where
  nonempty : name ≠ []
  notDot : name ≠ py "."
  noSlash : slash ∉ name
  noBackslash : backslash ∉ name
  noDots : containsSub (py "..") name = false
  noNul : nul ∉ name

theorem safeBasename_eq_some_iff {name base : PyStr} :
    safeBasename name = some base ↔ base = osPathBasename name ∧ FileName base := by
  have hempty : osPathBasename [] = [] := rfl
  have hdots : containsSub (py "..") (py "..") = true := by decide
  unfold safeBasename
  dsimp only
  constructor
  · intro h
    split_ifs at h with hnone hunsafe
    cases h
    simp only [not_or] at hnone hunsafe
    obtain ⟨-, hnonempty, hdot, -⟩ := hnone
    obtain ⟨hslash, hback, hsub, hnul⟩ := hunsafe
    exact ⟨rfl, hnonempty, hdot, hslash, hback, by simpa using hsub, hnul⟩
  · rintro ⟨rfl, hname⟩
    have hpath : name ≠ [] := fun h => hname.nonempty (h ▸ hempty)
    have hdotdot : osPathBasename name ≠ py ".." := by
      intro h
      have hsub := hname.noDots
      rw [h, hdots] at hsub
      cases hsub
    have hsub : ¬ containsSub (py "..") (osPathBasename name) = true := by
      rw [hname.noDots]
      exact Bool.false_ne_true
    have hback : CodePoint.ofNat 0x5C ∉ osPathBasename name := hname.noBackslash
    have hnul : CodePoint.ofNat 0 ∉ osPathBasename name := hname.noNul
    rw [if_neg (not_or.mpr ⟨hpath, not_or.mpr ⟨hname.nonempty, not_or.mpr
      ⟨hname.notDot, hdotdot⟩⟩⟩), if_neg (not_or.mpr ⟨hname.noSlash, not_or.mpr
      ⟨hback, not_or.mpr ⟨hsub, hnul⟩⟩⟩)]

/-- A URL up to its query or fragment. -/
def urlPath (url : PyStr) : PyStr := url.takeWhile fun c => c.val ≠ 0x3F && c.val ≠ 0x23

def lastSegment (url : PyStr) : PyStr := osPathBasename (urlPath url)

theorem urlPath_eq (url : PyStr) : urlPath url =
    (splitOn (CodePoint.ofNat 0x23)
      ((splitOn (CodePoint.ofNat 0x3F) url).headD [])).headD [] := by
  have hval (c : CodePoint) {n : ℕ} (hn : n < 0x110000) :
      decide (c ≠ CodePoint.ofNat n) = decide (c.val ≠ n) := by
    have hmod : (CodePoint.ofNat n).val = n := Nat.mod_eq_of_lt hn
    exact decide_eq_decide.mpr (by rw [ne_eq, Fin.ext_iff, hmod])
  rw [splitOn_headD, splitOn_headD, List.takeWhile_takeWhile, urlPath]
  refine congrArg (fun p => List.takeWhile p url) (funext fun c => ?_)
  have hquery := hval c (by decide : 0x3F < 0x110000)
  have hfragment := hval c (by decide : 0x23 < 0x110000)
  simp only [hquery, hfragment, Bool.decide_and, Bool.and_comm]
  simp

theorem basenameFromFrameFilename_str (url : PyStr) :
    basenameFromFrameFilename (.str url) = safeBasename (lastSegment url) := by
  cases url with
  | nil => rfl
  | cons c cs =>
      rw [lastSegment, urlPath_eq]
      rfl

theorem basenameFromFrameFilename_eq_some_iff {url base : PyStr} :
    basenameFromFrameFilename (.str url) = some base ↔ base = lastSegment url ∧ FileName base := by
  have hsegment : osPathBasename (lastSegment url) = lastSegment url :=
    osPathBasename_of_not_mem (slash_notMem_osPathBasename (urlPath url))
  rw [basenameFromFrameFilename_str, safeBasename_eq_some_iff, hsegment]

theorem basenameFromFrameFilename_eq_none_iff {url : PyStr} :
    basenameFromFrameFilename (.str url) = none ↔ ¬ FileName (lastSegment url) := by
  rw [Option.eq_none_iff_forall_ne_some]
  constructor
  · exact fun h hname => h _ (basenameFromFrameFilename_eq_some_iff.mpr ⟨rfl, hname⟩)
  · intro hno base hbase
    obtain ⟨rfl, hname⟩ := basenameFromFrameFilename_eq_some_iff.mp hbase
    exact hno hname

end Crashlens
