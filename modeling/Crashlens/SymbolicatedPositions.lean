import Crashlens.MappingsCodec
import Crashlens.Symbolication

/-!
# The positions symbolication writes

The original line and column of a segment are sums of signed differences over the whole file, and a
frame takes them over as they are. They are valid when neither sum is negative; a frame that has the
values of its segment already is not changed by them either.
-/

namespace Crashlens

section Writes

variable (frame : Dict) (m : SourceMap) (seg : Segment) (source : PyStr)

theorem lookup_setAll_ne {ws : List (String × Json)} {k : PyStr} (h : k ∉ ws.map fun w => py w.1)
    (d : Dict) : (d.setAll ws).lookup k = d.lookup k := by
  induction ws generalizing d with
  | nil => rfl
  | cons w ws ih =>
      rw [List.map_cons, List.mem_cons, not_or] at h
      exact (ih h.2 (d.set w.1 w.2)).trans (Dict.lookup_set_ne d h.1 w.2)

theorem lookup_setAll_of_mem {ws : List (String × Json)} (hnodup : (ws.map fun w => py w.1).Nodup)
    {w : String × Json} (h : w ∈ ws) (d : Dict) : (d.setAll ws).lookup (py w.1) = some w.2 := by
  induction ws generalizing d with
  | nil => cases h
  | cons w' ws ih =>
      rw [List.map_cons, List.nodup_cons] at hnodup
      obtain rfl | h := List.mem_cons.mp h
      · exact (lookup_setAll_ne hnodup.1 (d.set w.1 w.2)).trans (Dict.lookup_set_self d w.1 w.2)
      · exact ih hnodup.2 h (d.set w'.1 w'.2)

theorem nodup_writes : ((writes frame m seg source).map fun w => py w.1).Nodup := by
  have hsub : ((writes frame m seg source).map fun w => py w.1).Sublist
      (["raw_filename", "raw_lineno", "filename", "lineno", "colno"].map py ++
        ["function"].map py ++ ["in_app"].map py ++
        ["context_line", "pre_context", "post_context"].map py) := by
    unfold writes
    simp only [List.map_append]
    refine ((List.Sublist.append ?_ ?_).append ?_).append ?_
    · exact List.Sublist.refl _
    · unfold functionWrites
      split
      · exact List.Sublist.refl _
      · exact List.nil_sublist _
    · unfold inAppWrites
      split
      · split_ifs
        · exact List.Sublist.refl _
        · exact List.nil_sublist _
      · exact List.nil_sublist _
    · unfold contextWrites
      split
      · exact List.Sublist.refl _
      · exact List.nil_sublist _
  exact hsub.nodup (by decide +kernel)

end Writes

/-! ## Valid positions -/

section Positions

/-- The two have the same fields with the same values. -/
def Dict.Same (d d' : Dict) : Prop := ∀ k, d.lookup k = d'.lookup k

/-- The frame is as it was, or it has a line and a column from one on. -/
def PositionValid (frame out : Dict) : Prop :=
  out.Same frame ∨ ∃ lineno colno : ℤ, out.get "lineno" = .int lineno ∧ 1 ≤ lineno ∧
    out.get "colno" = .int colno ∧ 1 ≤ colno

/-- The frame has the values it would take over. -/
def Carries (frame : Dict) (m : SourceMap) (seg : Segment) (source : PyStr) : Prop :=
  ∀ w ∈ writes frame m seg source, frame.lookup (py w.1) = some w.2

variable {frame : Dict} {m : SourceMap} {seg : Segment} {source : PyStr}

theorem same_setAll_iff {ws : List (String × Json)} (hnodup : (ws.map fun w => py w.1).Nodup)
    (d : Dict) : (d.setAll ws).Same d ↔ ∀ w ∈ ws, d.lookup (py w.1) = some w.2 := by
  constructor
  · intro hsame w hw
    rw [← hsame (py w.1), lookup_setAll_of_mem hnodup hw]
  · intro hcarries k
    by_cases hk : k ∈ ws.map fun w => py w.1
    · obtain ⟨w, hw, rfl⟩ := List.mem_map.mp hk
      rw [lookup_setAll_of_mem hnodup hw, hcarries w hw]
    · exact lookup_setAll_ne hk d

theorem rewrite_get {w : String × Json} (h : w ∈ writes frame m seg source) :
    (frame.rewrite m seg source).get w.1 = w.2 := by
  rw [rewrite_eq_setAll, Dict.get, lookup_setAll_of_mem (nodup_writes frame m seg source) h,
    Option.getD_some]

theorem positionValid_rewrite_iff :
    PositionValid frame (frame.rewrite m seg source) ↔
      0 ≤ seg.origLine ∧ 0 ≤ seg.origCol ∨ Carries frame m seg source := by
  have hline : (frame.rewrite m seg source).get "lineno" = .int (seg.origLine + 1) :=
    rewrite_get (w := ("lineno", .int (seg.origLine + 1))) (by simp [writes, positionWrites])
  have hcol : (frame.rewrite m seg source).get "colno" = .int (seg.origCol + 1) :=
    rewrite_get (w := ("colno", .int (seg.origCol + 1))) (by simp [writes, positionWrites])
  rw [PositionValid, hline, hcol, or_comm]
  refine or_congr ⟨?_, ?_⟩ ?_
  · rintro ⟨lineno, colno, hlineno, hl, hcolno, hc⟩
    cases hlineno
    cases hcolno
    omega
  · rintro ⟨hl, hc⟩
    exact ⟨_, _, rfl, by omega, rfl, by omega⟩
  · rw [rewrite_eq_setAll]
    exact same_setAll_iff (nodup_writes frame m seg source) frame

variable (m frame)

/-- Symbolication gives a valid position, or leaves the frame alone, exactly when the segment at the
position of the frame has a line and a column that are not negative or the frame has its values. -/
theorem positionValid_iff : PositionValid frame (symbolicateFrame frame m) ↔
    ∀ seg source, m.segmentAt frame = some (seg, source) →
      0 ≤ seg.origLine ∧ 0 ≤ seg.origCol ∨ Carries frame m seg source := by
  cases hseg : m.segmentAt frame with
  | none =>
      rw [symbolicateFrame_none hseg]
      exact iff_of_true (.inl fun _ => rfl) fun _ _ h => by cases h
  | some found =>
      obtain ⟨seg, source⟩ := found
      rw [symbolicateFrame_some hseg, positionValid_rewrite_iff]
      constructor
      · intro h seg' source' heq
        cases heq
        exact h
      · exact fun h => h seg source rfl

omit m frame

def minifiedFrame : Dict :=
  [(py "filename", .str (py "https://cdn.example/app.js")), (py "lineno", .int 1),
    (py "colno", .int 1)]

/-- One segment, on the line before the first. -/
theorem line_zero :
    ∃ m, parseSourceMap (.obj (sampleDocument (py "AADA"))) = .ok m ∧
      asInt (Dict.get (symbolicateFrame minifiedFrame m) "lineno") = some 0 ∧
      ¬ PositionValid minifiedFrame (symbolicateFrame minifiedFrame m) := by
  have hzero : (parseSourceMap (.obj (sampleDocument (py "AADA")))).toOption.map
      (fun m => asInt (Dict.get (symbolicateFrame minifiedFrame m) "lineno")) = some (some 0) := by
    decide +kernel
  obtain ⟨m, hm, hline⟩ := Option.map_eq_some_iff.mp hzero
  refine ⟨m, toOption_eq_some hm, hline, ?_⟩
  rintro (hsame | ⟨lineno, colno, hlineno, hle, -⟩)
  · have hone : Dict.get (symbolicateFrame minifiedFrame m) "lineno" = .int 1 := by
      rw [Dict.get, hsame]
      rfl
    rw [hone] at hline
    cases hline
  · rw [hlineno] at hline
    obtain rfl : lineno = 0 := Option.some.inj hline
    exact absurd hle (by decide)

end Positions

end Crashlens
