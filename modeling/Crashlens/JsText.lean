import Crashlens.JsNumber
import Crashlens.Library.Backtracking
import Mathlib.Data.List.DropRight
import Mathlib.Data.List.TakeWhile

/-!
# JavaScript strings

A JavaScript string is a list of UTF-16 code units, lone surrogates included, and a regular
expression without the `u` flag reads it one code unit at a time. The classes below are those of
`.`, `\s`, `\d` and `\w`; `trim` strips what `\s` matches.
-/

namespace Crashlens

open Backtracking

abbrev CodeUnit := Fin 0x10000

abbrev JsStr := List CodeUnit

def CodeUnit.ofChar (c : Char) : CodeUnit := Fin.ofNat _ c.toNat

/-- The texts of the source have one code unit for each character. -/
def js (s : String) : JsStr := s.toList.map CodeUnit.ofChar

namespace CodeUnit

def lineFeed : CodeUnit := 0x0A

def lineTerminators : List CodeUnit := [lineFeed, 0x0D, 0x2028, 0x2029]

def blanks : List CodeUnit :=
  [0x09, 0x0B, 0x0C, 0x20, 0xA0, 0x1680, 0x2000, 0x2001, 0x2002, 0x2003, 0x2004, 0x2005, 0x2006,
    0x2007, 0x2008, 0x2009, 0x200A, 0x202F, 0x205F, 0x3000, 0xFEFF]

def isLineTerminator (c : CodeUnit) : Bool := lineTerminators.contains c

def isSpace (c : CodeUnit) : Bool := blanks.contains c || c.isLineTerminator

def isDigit (c : CodeUnit) : Bool := 0x30 ≤ c.val && c.val ≤ 0x39

def isWordChar (c : CodeUnit) : Bool :=
  c.isDigit || (0x41 ≤ c.val && c.val ≤ 0x5A) || (0x61 ≤ c.val && c.val ≤ 0x7A) || c.val == 0x5F

/-- What `.` matches. -/
def isDot (c : CodeUnit) : Bool := !c.isLineTerminator

theorem ofChar_digit {d : Char} (h : d.isDigit = true) :
    (ofChar d).val = d.toNat ∧ 0x30 ≤ d.toNat ∧ d.toNat ≤ 0x39 := by
  obtain ⟨hlow, hhigh⟩ : 0x30 ≤ d.toNat ∧ d.toNat ≤ 0x39 := Char.isDigit_iff_toNat.mp h
  exact ⟨Nat.mod_eq_of_lt (by omega), hlow, hhigh⟩

/-- No digit is a separator of the stack formats. -/
theorem isDigit_ne {c d : CodeUnit} (hc : c.isDigit = true) (hd : d.isDigit = false) : c ≠ d := by
  rintro rfl
  rw [hc] at hd
  cases hd

theorem isLineTerminator_of_isDigit {c : CodeUnit} (h : c.isDigit = true) :
    c.isLineTerminator = false := by
  have hdigits : lineTerminators.any isDigit = false := by decide +kernel
  rw [isLineTerminator, ← Bool.not_eq_true, List.contains_iff_mem]
  exact fun hmem => List.any_eq_false.mp hdigits c hmem h

end CodeUnit

namespace JsStr

/-- `s.trim()` -/
def trim (s : JsStr) : JsStr := (s.dropWhile CodeUnit.isSpace).rdropWhile CodeUnit.isSpace

/-- `s.split("\n")` -/
def lines (s : JsStr) : List JsStr := s.splitOn CodeUnit.lineFeed

/-- `ls.join("\n")` -/
def joinLines (ls : List JsStr) : JsStr := [CodeUnit.lineFeed].intercalate ls

/-- `parseInt(s, 10)` of a text without a sign and without blanks in front. -/
def parseInt (s : JsStr) : JsNumber :=
  match s.takeWhile CodeUnit.isDigit with
  | [] => .nan
  | digits => .ofNat (digits.foldl (fun n d => 10 * n + (d.val - 0x30)) 0)

/-- A natural below `10 ^ 21`, as a template literal writes it. -/
def decimalText (n : ℕ) : JsStr := (Nat.toDigits 10 n).map CodeUnit.ofChar

/-- A text without line terminators of any kind. -/
def OneLine (s : JsStr) : Prop := ∀ c ∈ s, c.isLineTerminator = false

/-- One line of text is what `.*` matches as a whole. -/
theorem oneLine_iff {s : JsStr} : s.OneLine ↔ ∀ c ∈ s, c.isDot = true := by
  simp only [OneLine, CodeUnit.isDot, Bool.not_eq_true']

instance (s : JsStr) : Decidable s.OneLine :=
  decidable_of_iff (s.all CodeUnit.isDot = true) (List.all_eq_true.trans oneLine_iff.symm)

theorem OneLine.append {s t : JsStr} (hs : s.OneLine) (ht : t.OneLine) : OneLine (s ++ t) :=
  List.forall_mem_append.mpr ⟨hs, ht⟩

theorem OneLine.lineFeed_notMem {s : JsStr} (h : s.OneLine) : CodeUnit.lineFeed ∉ s :=
  fun hmem => absurd (h _ hmem) (by decide +kernel)

theorem trim_isEmpty_iff {s : JsStr} :
    s.trim.isEmpty = true ↔ ∀ c ∈ s, c.isSpace = true := by
  rw [List.isEmpty_iff, trim, List.rdropWhile_eq_nil_iff]
  constructor
  · intro h c hc
    rw [← List.takeWhile_append_dropWhile (p := CodeUnit.isSpace) (l := s), List.mem_append] at hc
    exact hc.elim (List.mem_takeWhile_imp) (h c)
  · intro h c hc
    exact h c (List.dropWhile_sublist _ |>.subset hc)

theorem lines_append (s t : JsStr) :
    lines (s ++ CodeUnit.lineFeed :: t) = lines s ++ lines t :=
  List.splitOn_append_cons_self s t

theorem lines_joinLines {ls : List JsStr} (h : ∀ line ∈ ls, CodeUnit.lineFeed ∉ line)
    (hne : ls ≠ []) : (joinLines ls).lines = ls :=
  List.splitOn_intercalate _ h hne

theorem mem_decimalText {n : ℕ} {c : CodeUnit} (h : c ∈ decimalText n) : c.isDigit = true := by
  obtain ⟨d, hd, rfl⟩ := List.mem_map.mp h
  obtain ⟨hval, hbounds⟩ :=
    CodeUnit.ofChar_digit (Nat.isDigit_of_mem_toDigits (by omega) (by omega) hd)
  simpa only [CodeUnit.isDigit, hval, Bool.and_eq_true, decide_eq_true_eq] using hbounds

theorem decimalText_oneLine (n : ℕ) : (decimalText n).OneLine :=
  fun _ hc => CodeUnit.isLineTerminator_of_isDigit (mem_decimalText hc)

theorem decimalText_ne_nil (n : ℕ) : decimalText n ≠ [] := by
  rw [decimalText, ne_eq, List.map_eq_nil_iff]
  exact Nat.toDigits_ne_nil

theorem foldl_map_ofChar (digits : List Char) (hdigits : ∀ d ∈ digits, d.isDigit = true)
    (start : ℕ) :
    (digits.map CodeUnit.ofChar).foldl (fun n d => 10 * n + (d.val - 0x30)) start =
      Nat.ofDigitChars 10 digits start := by
  induction digits generalizing start with
  | nil => rw [List.map_nil, List.foldl_nil, Nat.ofDigitChars_nil]
  | cons d digits ih =>
      obtain ⟨hd, hdigits⟩ := List.forall_mem_cons.mp hdigits
      rw [List.map_cons, List.foldl_cons, ih hdigits, Nat.ofDigitChars_cons,
        (CodeUnit.ofChar_digit hd).1]
      rfl

/-- Line and column numbers survive being written and read. -/
theorem parseInt_decimalText {n : ℕ} (h : n < 2 ^ 53) : parseInt (decimalText n) = .finite n := by
  have hall : (decimalText n).takeWhile CodeUnit.isDigit = decimalText n :=
    List.takeWhile_eq_self_iff.mpr fun _ => mem_decimalText
  have hvalue : (decimalText n).foldl (fun n d => 10 * n + (d.val - 0x30)) 0 = n := by
    rw [decimalText, foldl_map_ofChar _ fun _ => Nat.isDigit_of_mem_toDigits (by omega) (by omega),
      Nat.ofDigitChars_ten_toDigits]
  rw [parseInt, hall]
  split
  · exact absurd ‹_› (decimalText_ne_nil n)
  · rw [hvalue, JsNumber.ofNat_of_lt h]

end JsStr

end Crashlens
