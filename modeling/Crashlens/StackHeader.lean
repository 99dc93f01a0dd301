import Crashlens.StackTrace

/-!
# The header of a stack

`Error.stack` starts with `type: message`, and nothing but the look of these lines keeps them from
becoming frames. The parsers work line by line, so the frames of header and stack are the frames of
the one followed by the frames of the other, and the header adds none exactly when none of its lines
looks like a frame.
-/

namespace Crashlens.Stack

open Backtracking CodeUnit

/-! ## Lines that look like frames -/

section Looks

/-- A line that starts with the word `at` and a blank. -/
def StartsWithAt (line : JsStr) : Prop :=
  ∃ indent rest : JsStr, ∃ blank : CodeUnit, line = indent ++ (js "at" ++ blank :: rest) ∧
    (∀ c ∈ indent, c.isSpace = true) ∧ blank.isSpace = true

/-- After the word and the blanks there is one line of text, for every kind of line terminator. -/
def LooksLikeV8 (line : JsStr) : Prop :=
  ∃ indent gap text : JsStr, line = indent ++ (js "at" ++ (gap ++ text)) ∧
    (∀ c ∈ indent, c.isSpace = true) ∧ (gap ≠ [] ∧ ∀ c ∈ gap, c.isSpace = true) ∧
      text.OneLine

/-- After the first `@` there is one line of text. -/
def LooksLikeFirefox (line : JsStr) : Prop :=
  ∃ func location : JsStr, line = func ++ (js "@" ++ location) ∧ (∀ c ∈ func, c ∉ js "@") ∧
    location.OneLine

def LooksLikeFrame (line : JsStr) : Prop :=
  LooksLikeV8 line ∨ ¬ StartsWithAt line ∧ LooksLikeFirefox line

variable {line : JsStr}

theorem LooksLikeV8.startsWithAt (h : LooksLikeV8 line) : StartsWithAt line := by
  obtain ⟨indent, gap, text, rfl, hindent, ⟨hne, hgap⟩, -⟩ := h
  obtain ⟨blank, gap, rfl⟩ := List.exists_cons_of_ne_nil hne
  exact ⟨indent, gap ++ text, blank, rfl, hindent, hgap blank List.mem_cons_self⟩

theorem LooksLikeFirefox.contains_at (h : LooksLikeFirefox line) : js "@" <:+: line := by
  obtain ⟨func, location, rfl, -⟩ := h
  exact ⟨func, location, List.append_assoc ..⟩

theorem at_not_space : (js "@").any isSpace = false := by decide +kernel

theorem word_not_space : (js "at").any isSpace = false := by decide +kernel

theorem not_blank_of_part {part : JsStr} (hne : part ≠ []) (hpart : part.any isSpace = false)
    (h : part <:+: line) : ¬ line.trim.isEmpty = true := by
  rw [JsStr.trim_isEmpty_iff]
  intro hblank
  obtain ⟨c, part, rfl⟩ := List.exists_cons_of_ne_nil hne
  rw [List.any_cons, hblank c (h.subset List.mem_cons_self), Bool.true_or] at hpart
  cases hpart

/-- A line that looks like a frame holds the word or an `@`. -/
theorem LooksLikeFrame.not_blank (h : LooksLikeFrame line) : ¬ line.trim.isEmpty = true := by
  rcases h with ⟨indent, gap, text, hline, -⟩ | ⟨-, h⟩
  · refine not_blank_of_part (by decide +kernel) word_not_space ⟨indent, gap ++ text, ?_⟩
    rw [hline, List.append_assoc]
  · exact not_blank_of_part (by decide +kernel) at_not_space h.contains_at

theorem atBlank_test_iff : atBlank.test line = true ↔ StartsWithAt line := by
  rw [Pattern.test_iff]
  constructor
  · rintro ⟨pieces, rest, hfits, -, rfl⟩
    obtain ⟨indent, _, hindent, hword, rfl⟩ := List.forall₂_cons_left_iff.mp hfits
    obtain ⟨_, hend, rfl⟩ := fits_literal_append.mp hword
    obtain ⟨_, _, hone, hnil, rfl⟩ := List.forall₂_cons_left_iff.mp hend
    obtain ⟨blank, rfl, hblank⟩ := fits_one hone
    obtain rfl := List.forall₂_nil_left_iff.mp hnil
    refine ⟨indent, rest, blank, ?_, hindent.2, hblank⟩
    simp [flatten_map_singleton]
  · rintro ⟨indent, rest, blank, rfl, hindent, hblank⟩
    refine ⟨indent :: ((js "at").map ([·]) ++ [[blank]]), rest, ?_, rfl, ?_⟩
    · refine .cons ⟨Nat.zero_le _, hindent⟩ (fits_literal_append.mpr ⟨_, ?_, rfl⟩)
      exact .cons (fits_one_iff.mpr hblank) .nil
    · simp [flatten_map_singleton]

theorem atLine_test_iff : atLine.test line = true ↔ LooksLikeV8 line := by
  rw [Pattern.test_iff]
  constructor
  · rintro ⟨pieces, rest, hfits, hafter, rfl⟩
    obtain ⟨indent, _, hindent, hword, rfl⟩ := List.forall₂_cons_left_iff.mp hfits
    obtain ⟨_, hblanks, rfl⟩ := fits_literal_append.mp hword
    obtain ⟨gap, _, ⟨hlength, hgap⟩, hend, rfl⟩ := List.forall₂_cons_left_iff.mp hblanks
    obtain ⟨text, _, htext, hnil, rfl⟩ := List.forall₂_cons_left_iff.mp hend
    obtain rfl := List.forall₂_nil_left_iff.mp hnil
    obtain rfl := List.isEmpty_iff.mp hafter
    refine ⟨indent, gap, text, ?_, hindent.2, ⟨List.length_pos_iff.mp hlength, hgap⟩,
      JsStr.oneLine_iff.mpr htext.2⟩
    simp [flatten_map_singleton]
  · rintro ⟨indent, gap, text, rfl, hindent, ⟨hne, hgap⟩, htext⟩
    refine ⟨indent :: ((js "at").map ([·]) ++ [gap, text]), [], ?_, rfl, ?_⟩
    · refine .cons ⟨Nat.zero_le _, hindent⟩ (fits_literal_append.mpr ⟨_, ?_, rfl⟩)
      exact .cons ⟨List.length_pos_iff.mpr hne, hgap⟩
        (.cons ⟨Nat.zero_le _, JsStr.oneLine_iff.mp htext⟩ .nil)
    · simp [flatten_map_singleton]

/-- The blanks in front belong to the text before the `@`. -/
theorem firefoxLine_test_iff : firefoxLine.test line = true ↔ LooksLikeFirefox line := by
  have hclass : ∀ c : CodeUnit, (!(js "@").contains c) = true ↔ c ∉ js "@" := by
    intro c
    rw [Bool.not_eq_true', ← Bool.not_eq_true, List.contains_iff_mem]
  rw [Pattern.test_iff]
  constructor
  · rintro ⟨pieces, rest, hfits, hafter, rfl⟩
    obtain ⟨indent, _, ⟨-, hindent⟩, hname, rfl⟩ := List.forall₂_cons_left_iff.mp hfits
    obtain ⟨func, _, ⟨-, hfunc⟩, hat, rfl⟩ := List.forall₂_cons_left_iff.mp hname
    obtain ⟨_, hend, rfl⟩ := fits_literal_append.mp hat
    obtain ⟨location, _, ⟨-, hlocation⟩, hnil, rfl⟩ := List.forall₂_cons_left_iff.mp hend
    obtain rfl := List.forall₂_nil_left_iff.mp hnil
    obtain rfl := List.isEmpty_iff.mp hafter
    refine ⟨indent ++ func, location, ?_, ?_, JsStr.oneLine_iff.mpr hlocation⟩
    · simp [flatten_map_singleton]
    · intro c hc hat
      rcases List.mem_append.mp hc with hc | hc
      · exact absurd (hindent c hc) (List.any_eq_false.mp at_not_space c hat)
      · exact (hclass c).mp (hfunc c hc) hat
  · rintro ⟨func, location, rfl, hfunc, hlocation⟩
    refine ⟨[] :: func :: ((js "@").map ([·]) ++ [location]), [], ?_, rfl, ?_⟩
    · refine .cons ⟨Nat.zero_le _, fun _ h => absurd h List.not_mem_nil⟩
        (.cons ⟨Nat.zero_le _, fun c hc => (hclass c).mpr (hfunc c hc)⟩
          (fits_literal_append.mpr ⟨_, ?_, rfl⟩))
      exact .cons ⟨Nat.zero_le _, JsStr.oneLine_iff.mp hlocation⟩ .nil
    · simp [flatten_map_singleton]

end Looks

/-! ## The lines that become frames -/

section Frames

variable {line : JsStr}

theorem parseAtLine_isSome (normalize : JsStr → JsStr) :
    (parseAtLine normalize line).isSome = atLine.test line := by
  unfold parseAtLine
  split
  · rename_i hexec
    rw [Pattern.test, hexec]
    rfl
  · rename_i hshape
    refine (Pattern.test_eq_false_iff.mpr fun pieces hexec => ?_).symm
    have hlength : pieces.length = 5 := Pattern.exec_length hexec
    simp only [List.length_eq_succ_iff, List.length_eq_zero_iff] at hlength
    obtain ⟨a, _, rfl, b, _, rfl, c, _, rfl, d, _, rfl, e, _, rfl, rfl⟩ := hlength
    exact hshape a b c d e hexec

theorem Node.frameOf_isSome_iff (fileURLToPath : JsStr → Option JsStr) :
    (Node.frameOf fileURLToPath line).isSome = true ↔ LooksLikeV8 line := by
  unfold Node.frameOf
  split_ifs with hblank
  · rw [Node.parseV8Line, parseAtLine_isSome, atLine_test_iff]
  · refine iff_of_false Bool.false_ne_true fun h => hblank ?_
    exact atBlank_test_iff.mpr h.startsWithAt

theorem Browser.parseFirefoxLine_isSome :
    (Browser.parseFirefoxLine line).isSome = firefoxLine.test line := by
  unfold Browser.parseFirefoxLine
  split
  · rename_i hexec
    rw [Pattern.test, hexec]
    rfl
  · rename_i hshape
    refine (Pattern.test_eq_false_iff.mpr fun pieces hexec => ?_).symm
    have hlength : pieces.length = 4 := Pattern.exec_length hexec
    simp only [List.length_eq_succ_iff, List.length_eq_zero_iff] at hlength
    obtain ⟨a, _, rfl, b, _, rfl, c, _, rfl, d, _, rfl, rfl⟩ := hlength
    exact hshape a b c d hexec

/-- The browser SDK takes a line that starts with the word for a V8 line only. -/
theorem Browser.frameOf_isSome_iff :
    (Browser.frameOf line).isSome = true ↔ LooksLikeFrame line := by
  unfold Browser.frameOf LooksLikeFrame
  split_ifs with hblank hat
  · rw [Browser.parseChromeLine, parseAtLine_isSome, atLine_test_iff]
    refine (or_iff_left ?_).symm
    exact fun h => h.1 (atBlank_test_iff.mp hblank)
  · rw [Browser.parseFirefoxLine_isSome, firefoxLine_test_iff]
    constructor
    · exact fun h => .inr ⟨fun hstarts => hblank (atBlank_test_iff.mpr hstarts), h⟩
    · rintro (h | h)
      · exact absurd (atBlank_test_iff.mpr h.startsWithAt) hblank
      · exact h.2
  · refine iff_of_false Bool.false_ne_true ?_
    rintro (h | h)
    · exact hblank (atBlank_test_iff.mpr h.startsWithAt)
    · exact hat h.2.contains_at

variable {frameOf : JsStr → Option RawFrame}

theorem framesOf_append (header stack : JsStr) :
    framesOf frameOf (header ++ lineFeed :: stack) =
      framesOf frameOf header ++ framesOf frameOf stack := by
  rw [framesOf, JsStr.lines_append, List.filterMap_append]
  rfl

theorem framesOf_eq_nil_iff {Looks : JsStr → Prop} {text : JsStr}
    (hlooks : ∀ line, (frameOf line).isSome = true ↔ Looks line)
    (hblank : ∀ line, Looks line → ¬ line.trim.isEmpty = true) :
    framesOf frameOf text = [] ↔ ∀ line ∈ text.lines, ¬ Looks line := by
  rw [framesOf, List.filterMap_eq_nil_iff]
  refine forall₂_congr fun line _ => ?_
  rw [← hlooks, Option.not_isSome_iff_eq_none, ite_eq_left_iff]
  constructor
  · intro h
    by_contra hframe
    rw [← ne_eq, Option.ne_none_iff_isSome] at hframe
    rw [h (hblank line ((hlooks line).mp hframe))] at hframe
    cases hframe
  · exact fun h _ => h

end Frames

/-! ## The law of the header -/

section Header

/-- `type: message` -/
def header (type message : JsStr) : JsStr := type ++ js ": " ++ message

/-- The frames of header and stack are those of the stack. -/
def HeaderSkipped (parse : JsStr → List RawFrame) (type message : JsStr) (frames : List JsStr) :
    Prop :=
  parse (header type message ++ js "\n" ++ JsStr.joinLines frames) = parse (JsStr.joinLines frames)

variable {frameOf : JsStr → Option RawFrame} {type message : JsStr} {frames : List JsStr}

theorem headerSkipped_iff {Looks : JsStr → Prop}
    (hlooks : ∀ line, (frameOf line).isSome = true ↔ Looks line)
    (hblank : ∀ line, Looks line → ¬ line.trim.isEmpty = true) :
    HeaderSkipped (framesOf frameOf) type message frames ↔
      ∀ line ∈ (header type message).lines, ¬ Looks line := by
  rw [HeaderSkipped, List.append_assoc]
  have hfeed : js "\n" ++ JsStr.joinLines frames = lineFeed :: JsStr.joinLines frames := rfl
  rw [hfeed, framesOf_append, List.append_left_eq_self, framesOf_eq_nil_iff hlooks hblank]

/-- A frame of the header stands where the frame of the crash is expected. -/
theorem Browser.toStackFrames_append (text stack : JsStr) :
    Browser.toStackFrames (text ++ lineFeed :: stack) =
      Browser.toStackFrames stack ++ Browser.toStackFrames text := by
  simp only [Browser.toStackFrames, Browser.parseStackString, framesOf_append, List.reverse_append,
    List.map_append]

theorem Node.stackFramesFromString_append (fileURLToPath : JsStr → Option JsStr)
    (text stack : JsStr) (prefixes : Option (List JsStr)) :
    Node.stackFramesFromString fileURLToPath (text ++ lineFeed :: stack) prefixes =
      Node.stackFramesFromString fileURLToPath stack prefixes ++
        Node.stackFramesFromString fileURLToPath text prefixes := by
  simp only [Node.stackFramesFromString, Node.parseStackString, framesOf_append,
    List.reverse_append, List.map_append]

theorem header_skipped_iff_no_line_looks_like_frame (fileURLToPath : JsStr → Option JsStr)
    (type message : JsStr) (frames : List JsStr) :
    (HeaderSkipped Browser.parseStackString type message frames ∧
        HeaderSkipped (Node.parseStackString fileURLToPath) type message frames) ↔
      ∀ line ∈ (header type message).lines, ¬ LooksLikeFrame line := by
  have hbrowser : HeaderSkipped Browser.parseStackString type message frames ↔
      ∀ line ∈ (header type message).lines, ¬ LooksLikeFrame line :=
    headerSkipped_iff (fun _ => Browser.frameOf_isSome_iff) fun _ => LooksLikeFrame.not_blank
  have hnode : HeaderSkipped (Node.parseStackString fileURLToPath) type message frames ↔
      ∀ line ∈ (header type message).lines, ¬ LooksLikeV8 line :=
    headerSkipped_iff (fun _ => Node.frameOf_isSome_iff fileURLToPath)
      fun _ h => LooksLikeFrame.not_blank (.inl h)
  rw [hbrowser, hnode]
  exact and_iff_left_of_imp fun h line hline hv8 => h line hline (.inl hv8)

/-- An e-mail address in the browser, a line that starts with `at` in Node. -/
theorem header_lines_become_frames :
    (¬ ∀ (type message : JsStr) (frames : List JsStr),
      HeaderSkipped Browser.parseStackString type message frames) ∧
    ¬ ∀ (fileURLToPath : JsStr → Option JsStr) (type message : JsStr) (frames : List JsStr),
      HeaderSkipped (Node.parseStackString fileURLToPath) type message frames := by
  constructor
  · intro hall
    have hmail := hall (js "Error") (js "no user bob@example.com") [js "    at f (/app/x.js:1:2)"]
    exact absurd hmail (by unfold HeaderSkipped; decide +kernel)
  · intro hall
    have hat := hall some (js "Error") (js "stopped\nat startup") [js "    at f (/app/x.js:1:2)"]
    exact absurd hat (by unfold HeaderSkipped; decide +kernel)

end Header

end Crashlens.Stack
