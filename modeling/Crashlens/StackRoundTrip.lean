import Crashlens.StackHeader

/-!
# V8 frames survive being written and read

Four expressions cut a line `    at fn (file:line:col)`, and the file name may hold colons, digits,
blanks and parentheses. The lazy group in front of the opening parenthesis stops at the function
name, since no part of it is followed by blanks and a parenthesis; the greedy group behind it gives
back the last parenthesis only; and the two numbers at the end are the only ones with exactly two
colons.
-/

namespace Crashlens.Stack

open Backtracking CodeUnit JsStr

/-! ## Numbers at the end of a location -/

section Numbers

variable {after : List CodeUnit → Bool} {items : List (Item CodeUnit)} {rest : JsStr}
  {pieces : List JsStr}

theorem matchItems_number (n : ℕ) (hstop : ∀ c ∈ rest.head?, c.isDigit = false)
    (hrest : matchItems after items rest = some pieces) :
    matchItems after (numberItems ++ items) (js ":" ++ (decimalText n ++ rest)) =
      some (js ":" :: decimalText n :: pieces) := by
  have hdigits : matchItems after (.greedy 1 isDigit :: items) (decimalText n ++ rest) =
      some (decimalText n :: pieces) :=
    matchItems_greedy_run (List.length_pos_iff.mpr (decimalText_ne_nil n))
      (fun _ => mem_decimalText) hstop hrest
  rw [numberItems, List.append_assoc]
  exact matchItems_literal (js ":") hdigits

theorem matchItems_last_number (n : ℕ) :
    matchItems List.isEmpty numberItems (js ":" ++ decimalText n) =
      some [js ":", decimalText n] := by
  have h : matchItems List.isEmpty (numberItems ++ []) (js ":" ++ (decimalText n ++ [])) =
      some [js ":", decimalText n] :=
    matchItems_number n (fun _ h => nomatch h) (matchItems_nil rfl)
  rwa [List.append_nil, List.append_nil] at h

theorem fits_number (h : List.Forall₂ Item.Fits (numberItems ++ items) pieces) :
    ∃ (digits : JsStr) (later : List JsStr), pieces = js ":" :: digits :: later ∧
      (∀ c ∈ digits, c.isDigit = true) ∧ List.Forall₂ Item.Fits items later := by
  rw [numberItems, List.append_assoc] at h
  obtain ⟨_, hdigits, rfl⟩ := fits_literal_append.mp h
  obtain ⟨digits, later, hfits, hlater, rfl⟩ := List.forall₂_cons_left_iff.mp hdigits
  exact ⟨digits, later, rfl, hfits.2, hlater⟩

theorem count_colon_digits {digits : JsStr} (h : ∀ c ∈ digits, c.isDigit = true) :
    digits.count (ofChar ':') = 0 := by
  rw [List.count_eq_zero]
  intro hmem
  exact isDigit_ne (h _ hmem) (by decide +kernel) rfl

/-- A text that starts in front of the last two numbers has too many colons to be just these. -/
theorem two_numbers_not_longer {more : JsStr} (hmore : more ≠ []) (line col : ℕ) :
    matchItems List.isEmpty (numberItems ++ numberItems)
      (more ++ (js ":" ++ (decimalText line ++ (js ":" ++ decimalText col)))) = none := by
  refine matchItems_eq_none fun pieces rest hfits hafter hsplit => ?_
  obtain ⟨digits, _, rfl, hdigits, hlater⟩ := fits_number hfits
  rw [← List.append_nil numberItems] at hlater
  obtain ⟨digits', _, rfl, hdigits', hnil⟩ := fits_number hlater
  obtain rfl := List.forall₂_nil_left_iff.mp hnil
  obtain rfl := List.isEmpty_iff.mp hafter
  obtain ⟨c, more, rfl⟩ := List.exists_cons_of_ne_nil hmore
  have hcolon : (js ":").count (ofChar ':') = 1 := by decide +kernel
  have hnumber : ∀ n, (decimalText n).count (ofChar ':') = 0 := fun _ =>
    count_colon_digits fun _ => mem_decimalText
  have hcount := congrArg (List.count (ofChar ':')) hsplit
  have hhead : c = ofChar ':' := by
    have hheads := congrArg List.head? hsplit
    exact Option.some.inj hheads
  simp only [List.count_append, List.flatten_cons, List.flatten_nil, List.append_nil,
    List.cons_append, List.count_cons, hcolon, count_colon_digits hdigits,
    count_colon_digits hdigits', hnumber, hhead, beq_self_eq_true, if_true] at hcount
  omega

/-- `filename:line:col` -/
def location (filename : JsStr) (line col : ℕ) : JsStr :=
  filename ++ (js ":" ++ (decimalText line ++ (js ":" ++ decimalText col)))

theorem splitLocation_location {filename : JsStr} {line col : ℕ}
    (hfilename : filename.OneLine) (hline : line < 2 ^ 53) (hcol : col < 2 ^ 53) :
    splitLocation (location filename line col) = ⟨filename, .finite line, .finite col⟩ := by
  have hnumbers : matchItems List.isEmpty (numberItems ++ numberItems)
      (js ":" ++ (decimalText line ++ (js ":" ++ decimalText col))) =
        some [js ":", decimalText line, js ":", decimalText col] := by
    refine matchItems_number line ?_ (matchItems_last_number col)
    intro c hc
    obtain rfl : ofChar ':' = c := Option.some.inj hc
    decide +kernel
  have hexec : withCol.exec (location filename line col) =
      some [filename, js ":", decimalText line, js ":", decimalText col] := by
    refine matchItems_lazy (Nat.zero_le _) (oneLine_iff.mp hfilename) hnumbers ?_
    exact fun _ _ hmore _ => two_numbers_not_longer hmore line col
  rw [splitLocation, hexec]
  simp only [parseInt_decimalText hline, parseInt_decimalText hcol]

end Numbers

theorem append_ne_of_last {α : Type} {more rest blanks tail : List α} {c : α} (hmore : more ≠ [])
    (hc : c ∉ more) (hlast : more.getLast hmore ∉ blanks) : more ++ rest ≠ blanks ++ c :: tail := by
  intro h
  rcases List.append_eq_append_iff.mp h with ⟨middle, rfl, -⟩ | ⟨middle, rfl, hmiddle⟩
  · exact hlast (List.mem_append_left _ (List.getLast_mem hmore))
  · cases middle with
    | nil =>
        simp only [List.append_nil] at hlast
        exact hlast (List.getLast_mem _)
    | cons d middle =>
        obtain ⟨rfl, -⟩ := List.cons.inj hmiddle
        exact hc (List.mem_append_right _ List.mem_cons_self)

/-- A word without the separator that follows the name is in the name. -/
theorem prefix_of_prefix_append_cons {α : Type} {word name rest : List α} {c : α} (hc : c ∉ word)
    (h : word <+: name ++ c :: rest) : word <+: name := by
  obtain ⟨tail, htail⟩ := h
  rcases List.append_eq_append_iff.mp htail with ⟨middle, hmiddle, -⟩ | ⟨middle, rfl, hmiddle⟩
  · exact ⟨middle, hmiddle.symm⟩
  · cases middle with
    | nil => exact ⟨[], by simp⟩
    | cons d middle =>
        obtain ⟨rfl, -⟩ := List.cons.inj hmiddle
        exact absurd (List.mem_append_right _ List.mem_cons_self) hc

/-! ## The frames that are written -/

/-- A frame whose line can be read back. -/
structure V8Frame where
  func : JsStr
  filename : JsStr
  line : ℕ
  col : ℕ
  func_ne : func ≠ []
  func_no_paren : ∀ c ∈ func, c ∉ js "()"
  func_oneLine : func.OneLine
  func_head : ∀ c ∈ func.head?, c.isSpace = false
  func_last : ∀ c ∈ func.getLast?, c.isSpace = false
  func_ne_async : func ≠ js "async"
  func_not_awaited : ∀ c rest, func = js "async" ++ c :: rest → c.isSpace = false
  filename_oneLine : filename.OneLine
  filename_not_eval : ¬ js "eval" <+: filename
  filename_not_url : ¬ js "file://" <+: filename
  line_lt : line < 2 ^ 53
  col_lt : col < 2 ^ 53

namespace V8Frame

/-- `    at fn (file:line:col)` -/
def render (f : V8Frame) : JsStr :=
  js "    at " ++ f.func ++ js " (" ++ f.filename ++ js ":" ++ decimalText f.line ++ js ":" ++
    decimalText f.col ++ js ")"

def raw (f : V8Frame) : RawFrame := ⟨f.func, f.filename, .finite f.line, .finite f.col⟩

/-- The call without the indent and the word. -/
def call (f : V8Frame) : JsStr :=
  f.func ++ (js " (" ++ (location f.filename f.line f.col ++ js ")"))

variable (f : V8Frame)

theorem render_eq : f.render = js "    " ++ (js "at" ++ (js " " ++ f.call)) := by
  have hat : js "    at " = js "    " ++ (js "at" ++ js " ") := by decide +kernel
  simp only [render, call, location, hat, List.append_assoc]

theorem location_oneLine : (location f.filename f.line f.col).OneLine := by
  have hcolon : (js ":").OneLine := by decide +kernel
  exact f.filename_oneLine.append (hcolon.append ((decimalText_oneLine _).append
    (hcolon.append (decimalText_oneLine _))))

theorem call_oneLine : f.call.OneLine := by
  have hopen : (js " (").OneLine := by decide +kernel
  have hclose : (js ")").OneLine := by decide +kernel
  exact f.func_oneLine.append (hopen.append (f.location_oneLine.append hclose))

theorem render_oneLine : f.render.OneLine := by
  have hindent : (js "    ").OneLine := by decide +kernel
  have hat : (js "at").OneLine := by decide +kernel
  have hblank : (js " ").OneLine := by decide +kernel
  rw [f.render_eq]
  exact hindent.append (hat.append (hblank.append f.call_oneLine))

/-- The greedy group gives back the last parenthesis. -/
theorem paren_location : matchItems List.isEmpty
    (.greedy 0 isDot :: (literal (js ")") ++ [.greedy 0 isSpace]))
      (location f.filename f.line f.col ++ js ")") =
        some [location f.filename f.line f.col, js ")", []] := by
  have hclose : matchItems List.isEmpty (literal (js ")") ++ [.greedy 0 isSpace]) (js ")") =
      some [js ")", []] := by decide +kernel
  refine matchItems_greedy (Nat.zero_le _) (oneLine_iff.mp f.location_oneLine) hclose ?_
  intro more rest hmore hsplit _
  obtain rfl : rest = [] := by
    have hone : (js ")").length = 1 := by decide +kernel
    have hlength := congrArg List.length hsplit
    have hpos := List.length_pos_iff.mpr hmore
    rw [List.length_append] at hlength
    exact List.length_eq_zero_iff.mp (by omega)
  exact matchItems_one_none fun _ h => nomatch h

/-- No part of the name is followed by blanks and a parenthesis. -/
theorem paren_not_in_func {less more : JsStr} (hmore : more ≠ []) (hfunc : f.func = less ++ more)
    (items : List (Item CodeUnit)) (after : List CodeUnit → Bool) (rest : JsStr) :
    matchItems after (.greedy 0 isSpace :: (literal (js "(") ++ items)) (more ++ rest) = none := by
  refine matchItems_eq_none fun pieces tail hfits _ hsplit => ?_
  obtain ⟨blanks, _, ⟨-, hblanks⟩, hword, rfl⟩ := List.forall₂_cons_left_iff.mp hfits
  obtain ⟨later, -, rfl⟩ := fits_literal_append.mp hword
  have hlast : (more.getLast hmore).isSpace = false := by
    refine f.func_last _ ?_
    rw [hfunc, List.getLast?_append_of_ne_nil _ hmore, List.getLast?_eq_some_getLast hmore]
    rfl
  have hopen : ofChar '(' ∉ more := fun hmem =>
    f.func_no_paren _ (hfunc ▸ List.mem_append_right _ hmem) (by decide +kernel)
  have hpieces : (blanks :: ((js "(").map ([·]) ++ later)).flatten ++ tail =
      blanks ++ ofChar '(' :: (later.flatten ++ tail) := List.append_assoc blanks _ tail
  refine append_ne_of_last hmore hopen ?_ (hsplit.trans hpieces)
  exact fun hmem => Bool.false_ne_true (hlast.symm.trans (hblanks _ hmem))

theorem paren_call : paren.exec f.call =
    some [f.func, js " ", js "(", location f.filename f.line f.col, js ")", []] := by
  have hopen := matchItems_literal (js "(") f.paren_location
  have hspace : matchItems List.isEmpty
      (.greedy 0 isSpace :: (literal (js "(") ++ (.greedy 0 isDot :: (literal (js ")") ++
        [.greedy 0 isSpace]))))
      (js " " ++ (js "(" ++ (location f.filename f.line f.col ++ js ")"))) =
      some (js " " :: ((js "(").map ([·]) ++ [location f.filename f.line f.col, js ")", []])) := by
    refine matchItems_greedy_run (Nat.zero_le _) (fun c hc => ?_) (fun c hc => ?_) hopen
    · obtain rfl := List.mem_singleton.mp hc
      decide +kernel
    · obtain rfl : ofChar '(' = c := Option.some.inj hc
      decide +kernel
  exact matchItems_lazy (Nat.zero_le _) (oneLine_iff.mp f.func_oneLine) hspace
    fun _ _ hmore hfunc => f.paren_not_in_func hmore hfunc _ _ _

theorem callSite_call : callSite f.call = (f.func, location f.filename f.line f.col) := by
  rw [callSite, f.paren_call]

/-! ## The marks a frame does not have -/

theorem asyncMark_remove_call : asyncMark.remove f.call = f.call := by
  refine Pattern.remove_of_not_test fun htest => ?_
  obtain ⟨pieces, rest, hfits, -, hsplit⟩ := Pattern.test_iff.mp htest
  obtain ⟨_, hgap, rfl⟩ := fits_literal_append.mp hfits
  obtain ⟨gap, _, ⟨hlength, hblanks⟩, -, rfl⟩ := List.forall₂_cons_left_iff.mp hgap
  obtain ⟨blank, gap, rfl⟩ := List.exists_cons_of_length_pos hlength
  rw [List.flatten_append, flatten_map_singleton, List.append_assoc] at hsplit
  obtain ⟨tail, htail⟩ : js "async" <+: f.func :=
    prefix_of_prefix_append_cons (by decide +kernel) ⟨_, hsplit.symm⟩
  cases tail with
  | nil => exact f.func_ne_async (by rw [← htail, List.append_nil])
  | cons c tail =>
      rw [call, ← htail, List.append_assoc] at hsplit
      obtain ⟨rfl, -⟩ := List.cons.inj (List.append_cancel_left hsplit)
      have hblank := hblanks c List.mem_cons_self
      rw [f.func_not_awaited c tail htail.symm] at hblank
      cases hblank

theorem evalSite_location : evalSite (location f.filename f.line f.col) =
    location f.filename f.line f.col := by
  refine if_neg fun htest => f.filename_not_eval ?_
  obtain ⟨pieces, rest, hfits, -, hsplit⟩ := Pattern.test_iff.mp htest
  have hitems : evalMark.items = literal (js "eval") ++ [] := (List.append_nil _).symm
  rw [hitems] at hfits
  obtain ⟨later, -, rfl⟩ := fits_literal_append.mp hfits
  rw [List.flatten_append, flatten_map_singleton, List.append_assoc] at hsplit
  exact prefix_of_prefix_append_cons (by decide +kernel) ⟨_, hsplit.symm⟩

theorem normalizeFilename_filename (fileURLToPath : JsStr → Option JsStr) :
    Node.normalizeFilename fileURLToPath f.filename = f.filename :=
  if_neg f.filename_not_url

theorem orUnknown_func : orUnknown f.func = f.func :=
  if_neg fun h => f.func_ne (List.isEmpty_iff.mp h)

theorem call_head : ∀ c ∈ f.call.head?, c.isSpace = false := by
  intro c hc
  refine f.func_head c ?_
  rwa [call, List.head?_append_of_ne_nil _ f.func_ne] at hc

theorem atLine_render :
    atLine.exec f.render = some [js "    ", js "a", js "t", js " ", f.call] := by
  have hspace : ∀ c ∈ js " ", c.isSpace = true := List.all_eq_true.mp (by decide +kernel)
  have hindent : ∀ c ∈ js "    ", c.isSpace = true := List.all_eq_true.mp (by decide +kernel)
  have htext : matchItems List.isEmpty [.greedy 0 isDot] f.call = some [f.call] := by
    have h : matchItems List.isEmpty [.greedy 0 isDot] (f.call ++ []) = some [f.call] :=
      matchItems_greedy_run (Nat.zero_le _) (oneLine_iff.mp f.call_oneLine)
        (fun _ h => nomatch h) (matchItems_nil rfl)
    rwa [List.append_nil] at h
  have hgap : matchItems List.isEmpty [.greedy 1 isSpace, .greedy 0 isDot] (js " " ++ f.call) =
      some [js " ", f.call] :=
    matchItems_greedy_run (by decide +kernel) hspace f.call_head htext
  rw [f.render_eq]
  refine matchItems_greedy_run (Nat.zero_le _) hindent (fun c hc => ?_)
    (matchItems_literal (js "at") hgap)
  obtain rfl : ofChar 'a' = c := Option.some.inj hc
  decide +kernel

theorem parseV8Line_render (fileURLToPath : JsStr → Option JsStr) :
    Node.parseV8Line fileURLToPath f.render = some f.raw := by
  have hloc := splitLocation_location f.filename_oneLine f.line_lt f.col_lt
  rw [Node.parseV8Line, parseAtLine, f.atLine_render]
  simp only [f.asyncMark_remove_call, f.callSite_call, f.evalSite_location, hloc,
    f.normalizeFilename_filename, f.orUnknown_func]
  rfl

theorem looksLikeV8_render : LooksLikeV8 f.render := by
  rw [← atLine_test_iff, Pattern.test, f.atLine_render]
  rfl

theorem frameOf_render (fileURLToPath : JsStr → Option JsStr) :
    Node.frameOf fileURLToPath f.render = some f.raw := by
  rw [Node.frameOf, if_pos (atBlank_test_iff.mpr f.looksLikeV8_render.startsWithAt),
    f.parseV8Line_render]

/-- Where the application is: under the prefixes, or else outside `node_modules` and Node itself. -/
def InApp (prefixes : Option (List JsStr)) : Prop :=
  match prefixes with
  | some (p :: ps) => ∃ q ∈ p :: ps, q <+: f.filename
  | _ => ¬ js "node_modules" <:+: f.filename ∧ ¬ js "node:" <+: f.filename

instance (prefixes : Option (List JsStr)) : Decidable (f.InApp prefixes) := by
  unfold InApp
  split <;> infer_instance

theorem isInApp_filename (prefixes : Option (List JsStr)) :
    Node.isInApp f.filename prefixes = decide (f.InApp prefixes) := by
  have hheuristic (given : Option (List JsStr)) (h : given.getD [] = []) :
      Node.isInApp f.filename given = decide
        (¬ js "node_modules" <:+: f.filename ∧ ¬ js "node:" <+: f.filename) := by
    rw [Node.isInApp, h, List.length_nil, if_neg (Nat.lt_irrefl 0)]
    split_ifs with hnode hmodules
    · exact (decide_eq_false fun h => h.2 hnode).symm
    · exact (decide_eq_false fun h => h.1 hmodules).symm
    · exact (decide_eq_true ⟨hmodules, hnode⟩).symm
  match prefixes with
  | none => exact hheuristic none rfl
  | some [] => exact hheuristic (some []) rfl
  | some (p :: ps) =>
      rw [Node.isInApp, Option.getD_some, if_pos (List.length_pos_iff.mpr (List.cons_ne_nil p ps)),
        Bool.eq_iff_iff, List.any_eq_true, decide_eq_true_iff]
      simp only [decide_eq_true_eq]
      rfl

end V8Frame

/-! ## Whole stacks -/

section Stacks

variable (fileURLToPath : JsStr → Option JsStr) (frames : List V8Frame)

theorem parseStackString_render :
    Node.parseStackString fileURLToPath (joinLines (frames.map V8Frame.render)) =
      frames.map V8Frame.raw := by
  cases frames with
  | nil => rfl
  | cons f frames =>
      have hlines : (joinLines ((f :: frames).map V8Frame.render)).lines =
          (f :: frames).map V8Frame.render := by
        refine lines_joinLines (fun line hline => ?_) (List.cons_ne_nil _ _)
        obtain ⟨g, -, rfl⟩ := List.mem_map.mp hline
        exact g.render_oneLine.lineFeed_notMem
      rw [Node.parseStackString, framesOf, hlines, List.filterMap_map, ← List.filterMap_eq_map]
      refine List.filterMap_congr fun g _ => ?_
      have hblank := LooksLikeFrame.not_blank (.inl g.looksLikeV8_render)
      rw [Function.comp_apply, if_neg hblank, g.frameOf_render]
      rfl

/-- Frames that are written come back, the last call first. -/
theorem stackFramesFromString_render (prefixes : Option (List JsStr)) :
    Node.stackFramesFromString fileURLToPath (joinLines (frames.map V8Frame.render)) prefixes =
      (frames.map fun f => ⟨f.filename, f.func, .finite f.line, .finite f.col,
        decide (f.InApp prefixes)⟩).reverse := by
  rw [Node.stackFramesFromString, parseStackString_render, ← List.map_reverse, List.map_map,
    ← List.map_reverse]
  refine List.map_congr_left fun f _ => ?_
  rw [← f.isInApp_filename]
  rfl

/-- A file name with blanks, parentheses, colons and digits. -/
def driveFrame : V8Frame where
  func := js "f"
  filename := js "C:\\lib (x86):8:80\\a b.js"
  line := 3
  col := 14
  func_ne := by decide +kernel
  func_no_paren c hc := by
    obtain rfl := List.mem_singleton.mp hc
    decide +kernel
  func_oneLine := by decide +kernel
  func_head c hc := by
    obtain rfl : ofChar 'f' = c := Option.some.inj hc
    decide +kernel
  func_last c hc := by
    obtain rfl : ofChar 'f' = c := Option.some.inj hc
    decide +kernel
  func_ne_async := by decide +kernel
  func_not_awaited c rest h := nomatch congrArg List.length h
  filename_oneLine := by decide +kernel
  filename_not_eval := by decide +kernel
  filename_not_url := by decide +kernel
  line_lt := by omega
  col_lt := by omega

example : Node.parseStackString some driveFrame.render = [driveFrame.raw] := by decide +kernel

end Stacks

end Crashlens.Stack
