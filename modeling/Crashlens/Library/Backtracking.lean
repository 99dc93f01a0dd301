import Mathlib.Data.List.Basic
import Mathlib.Data.List.Forall2
import Mathlib.Data.List.Infix

/-!
# Backtracking matches

A pattern is a sequence of items, each one character or a run of characters of a class, and a test
on what follows the last piece. A run is greedy or lazy, and the matcher tries its lengths in that
order: the first length that lets the later items match is the one that is taken, so a match is
more than a way to split the text.

That there is a match is still a question of splits (`exec_isSome_iff`). Which one it is takes the
other lengths into account: a greedy piece is the longest (`matchItems_greedy`) and a lazy piece the
shortest (`matchItems_lazy`) after which the later items match.
-/

namespace Backtracking

variable {α : Type}

inductive Item (α : Type) where
  | one (test : α → Bool)
  | greedy (least : ℕ) (test : α → Bool)
  | lazy (least : ℕ) (test : α → Bool)

/-- The lengths an item can take at the start of `s`, in the order in which they are tried. -/
def Item.lengths : Item α → List α → List ℕ
  | .one test, s => if (s.takeWhile test).isEmpty then [] else [1]
  | .greedy least test, s =>
    (List.range' least ((s.takeWhile test).length + 1 - least)).reverse
  | .lazy least test, s => List.range' least ((s.takeWhile test).length + 1 - least)

/-- The pieces of the first match of `items` that leaves a rest `after` accepts. -/
def matchItems (after : List α → Bool) : List (Item α) → List α → Option (List (List α))
  | [], s => if after s then some [] else none
  | item :: items, s => (item.lengths s).findSome? fun n =>
    (matchItems after items (s.drop n)).map (s.take n :: ·)

/-- The items that match one text. -/
def literal [DecidableEq α] (text : List α) : List (Item α) := text.map fun c => .one (· == c)

structure Pattern (α : Type) where
  items : List (Item α)
  /-- What the text after the last piece has to be. -/
  after : List α → Bool

namespace Pattern

variable (p : Pattern α)

/-- The match at the start of the text. -/
def exec (s : List α) : Option (List (List α)) := matchItems p.after p.items s

def test (s : List α) : Bool := (p.exec s).isSome

/-- The match at the first place that has one. -/
def search (s : List α) : Option (List (List α)) := s.tails.findSome? p.exec

/-- The text without the match at its start. -/
def remove (s : List α) : List α :=
  match p.exec s with
  | some pieces => s.drop pieces.flatten.length
  | none => s

end Pattern

/-! ## Splits -/

def Item.Fits : Item α → List α → Prop
  | .one test, piece => piece.length = 1 ∧ ∀ c ∈ piece, test c = true
  | .greedy least test, piece => least ≤ piece.length ∧ ∀ c ∈ piece, test c = true
  | .lazy least test, piece => least ≤ piece.length ∧ ∀ c ∈ piece, test c = true

section Splits

variable {after : List α → Bool} {test : α → Bool} {least n : ℕ} {item : Item α}
  {items : List (Item α)} {s piece rest : List α} {pieces : List (List α)}

theorem le_takeWhile_length_iff (test : α → Bool) (s : List α) (n : ℕ) :
    n ≤ (s.takeWhile test).length ↔ n ≤ s.length ∧ ∀ c ∈ s.take n, test c = true := by
  induction s generalizing n with
  | nil =>
      simp only [List.takeWhile_nil, List.length_nil, List.take_nil, List.not_mem_nil,
        IsEmpty.forall_iff, implies_true, and_true]
  | cons c s ih =>
      cases n with
      | zero => simp
      | succ n =>
          rw [List.takeWhile_cons, List.take_succ_cons, List.length_cons, List.forall_mem_cons]
          cases hc : test c with
          | true =>
              rw [if_pos rfl, List.length_cons, Nat.add_le_add_iff_right, Nat.add_le_add_iff_right,
                ih]
              simp only [true_and]
          | false => simp

theorem mem_range'_takeWhile :
    n ∈ List.range' least ((s.takeWhile test).length + 1 - least) ↔
      n ≤ s.length ∧ least ≤ n ∧ ∀ c ∈ s.take n, test c = true := by
  have hrun := le_takeWhile_length_iff test s n
  rw [List.mem_range'_1]
  constructor
  · intro h
    obtain ⟨hlength, htest⟩ := hrun.mp (by omega)
    exact ⟨hlength, h.1, htest⟩
  · rintro ⟨hlength, hleast, htest⟩
    have hn := hrun.mpr ⟨hlength, htest⟩
    omega

theorem mem_lengths_iff : n ∈ item.lengths s ↔ n ≤ s.length ∧ item.Fits (s.take n) := by
  cases item with
  | one test =>
      have hrun := le_takeWhile_length_iff test s 1
      have hempty : (s.takeWhile test).isEmpty = true ↔ ¬ 1 ≤ (s.takeWhile test).length := by
        rw [List.isEmpty_iff_length_eq_zero]
        omega
      simp only [Item.lengths, Item.Fits]
      split_ifs with h
      · refine iff_of_false List.not_mem_nil ?_
        rintro ⟨hlength, hone, htest⟩
        rw [List.length_take, Nat.min_eq_left hlength] at hone
        subst hone
        exact hempty.mp h (hrun.mpr ⟨hlength, htest⟩)
      · rw [hempty, not_not] at h
        rw [List.mem_singleton]
        constructor
        · rintro rfl
          obtain ⟨hlength, htest⟩ := hrun.mp h
          exact ⟨hlength, by rw [List.length_take, Nat.min_eq_left hlength], htest⟩
        · rintro ⟨hlength, hone, -⟩
          rwa [List.length_take, Nat.min_eq_left hlength] at hone
  | greedy least test | lazy least test =>
      simp only [Item.lengths, Item.Fits, List.mem_reverse, mem_range'_takeWhile]
      refine and_congr_right fun hlength => ?_
      rw [List.length_take, Nat.min_eq_left hlength]

theorem length_mem_lengths (h : item.Fits piece) : piece.length ∈ item.lengths (piece ++ rest) := by
  rw [mem_lengths_iff, List.take_left, List.length_append]
  exact ⟨Nat.le_add_right .., h⟩

theorem matchItems_nil (h : after rest = true) : matchItems after [] rest = some [] := if_pos h

theorem matchItems_sound (h : matchItems after items s = some pieces) :
    List.Forall₂ Item.Fits items pieces ∧
      ∃ rest, s = pieces.flatten ++ rest ∧ after rest = true := by
  induction items generalizing s pieces with
  | nil =>
      simp only [matchItems] at h
      split_ifs at h with hafter
      obtain rfl := Option.some.inj h
      exact ⟨.nil, s, rfl, hafter⟩
  | cons item items ih =>
      obtain ⟨n, hn, hmatch⟩ := List.exists_of_findSome?_eq_some h
      obtain ⟨later, hlater, rfl⟩ := Option.map_eq_some_iff.mp hmatch
      obtain ⟨hfits, rest, hsplit, hafter⟩ := ih hlater
      refine ⟨.cons (mem_lengths_iff.mp hn).2 hfits, rest, ?_, hafter⟩
      rw [List.flatten_cons, List.append_assoc, ← hsplit, List.take_append_drop]

theorem matchItems_complete (hfits : List.Forall₂ Item.Fits items pieces)
    (hafter : after rest = true) :
    (matchItems after items (pieces.flatten ++ rest)).isSome = true := by
  induction hfits with
  | nil =>
      rw [List.flatten_nil, List.nil_append, matchItems_nil hafter]
      rfl
  | cons hfit _ ih =>
      rw [List.flatten_cons, List.append_assoc, matchItems, List.findSome?_isSome_iff]
      refine ⟨_, length_mem_lengths hfit, ?_⟩
      rwa [Option.isSome_map, List.drop_left]

theorem fits_one_iff {c : α} : (Item.one test).Fits [c] ↔ test c = true := by
  simp [Item.Fits]

theorem fits_one (h : (Item.one test).Fits piece) : ∃ c, piece = [c] ∧ test c = true := by
  obtain ⟨c, rfl⟩ := List.length_eq_one_iff.mp h.1
  exact ⟨c, rfl, fits_one_iff.mp h⟩

theorem fits_literal_append [DecidableEq α] {text : List α} :
    List.Forall₂ Item.Fits (literal text ++ items) pieces ↔
      ∃ later, List.Forall₂ Item.Fits items later ∧ pieces = text.map ([·]) ++ later := by
  induction text generalizing pieces with
  | nil => simp [literal]
  | cons c text ih =>
      rw [literal, List.map_cons, List.cons_append, List.forall₂_cons_left_iff, List.map_cons]
      constructor
      · rintro ⟨piece, pieces, hfit, hpieces, rfl⟩
        obtain ⟨d, rfl, hd⟩ := fits_one hfit
        obtain ⟨later, hlater, rfl⟩ := ih.mp hpieces
        rw [beq_iff_eq] at hd
        exact ⟨later, hlater, by rw [hd, List.cons_append]⟩
      · rintro ⟨later, hlater, rfl⟩
        exact ⟨[c], _, fits_one_iff.mpr (beq_self_eq_true c), ih.mpr ⟨later, hlater, rfl⟩, rfl⟩

theorem flatten_map_singleton (text : List α) : (text.map ([·])).flatten = text := by
  rw [← List.flatMap_def, List.flatMap_singleton']

theorem matchItems_eq_none (h : ∀ pieces rest, List.Forall₂ Item.Fits items pieces →
    after rest = true → s ≠ pieces.flatten ++ rest) : matchItems after items s = none := by
  rw [Option.eq_none_iff_forall_ne_some]
  intro pieces hmatch
  obtain ⟨hfits, rest, hsplit, hafter⟩ := matchItems_sound hmatch
  exact h pieces rest hfits hafter hsplit

end Splits

namespace Pattern

variable {p : Pattern α} {s : List α}

theorem test_iff : p.test s = true ↔ ∃ pieces rest, List.Forall₂ Item.Fits p.items pieces ∧
    p.after rest = true ∧ s = pieces.flatten ++ rest := by
  constructor
  · intro h
    obtain ⟨pieces, hmatch⟩ := Option.isSome_iff_exists.mp h
    obtain ⟨hfits, rest, hsplit, hafter⟩ := matchItems_sound hmatch
    exact ⟨pieces, rest, hfits, hafter, hsplit⟩
  · rintro ⟨pieces, rest, hfits, hafter, rfl⟩
    exact matchItems_complete hfits hafter

theorem exec_length {pieces : List (List α)} (h : p.exec s = some pieces) :
    pieces.length = p.items.length :=
  (matchItems_sound h).1.length_eq.symm

theorem test_eq_false_iff : p.test s = false ↔ ∀ pieces, p.exec s ≠ some pieces := by
  rw [test, Option.isSome_eq_false_iff, Option.isNone_iff_eq_none,
    Option.eq_none_iff_forall_ne_some]

theorem exec_eq_none_iff : p.exec s = none ↔ ¬ p.test s = true := by
  rw [test, Option.not_isSome_iff_eq_none]

theorem remove_of_not_test (h : ¬ p.test s = true) : p.remove s = s := by
  rw [remove, exec_eq_none_iff.mpr h]

end Pattern

/-! ## The first match -/

section First

variable {after : List α → Bool} {test : α → Bool} {least : ℕ} {item : Item α}
  {items : List (Item α)} {c : α} {piece rest : List α} {pieces : List (List α)}

theorem findSome?_eq_of_first {β γ : Type} (before : β → β → Prop) {xs : List β} {x : β}
    {f : β → Option γ} {y : γ} (hxs : xs.Pairwise before) (hx : x ∈ xs) (hf : f x = some y)
    (hbefore : ∀ x' ∈ xs, before x' x → f x' = none) : xs.findSome? f = some y := by
  obtain ⟨earlier, later, rfl⟩ := List.append_of_mem hx
  rw [List.pairwise_append] at hxs
  refine List.findSome?_eq_some_iff.mpr ⟨earlier, x, later, rfl, hf, fun x' hx' => ?_⟩
  exact hbefore x' (List.mem_append_left _ hx') (hxs.2.2 x' hx' x List.mem_cons_self)

/-- The later items at the place after `piece`, as the loop over the lengths sees them. -/
theorem attempt_length (hrest : matchItems after items rest = some pieces) :
    (matchItems after items ((piece ++ rest).drop piece.length)).map
      ((piece ++ rest).take piece.length :: ·) = some (piece :: pieces) := by
  rw [List.drop_left, List.take_left, hrest, Option.map_some]

theorem matchItems_one (hc : test c = true) (hrest : matchItems after items rest = some pieces) :
    matchItems after (.one test :: items) (c :: rest) = some ([c] :: pieces) := by
  simp [matchItems, Item.lengths, hc, hrest]

theorem matchItems_one_none (hc : ∀ c ∈ rest.head?, test c = false) :
    matchItems after (.one test :: items) rest = none := by
  cases rest with
  | nil => simp [matchItems, Item.lengths]
  | cons c rest =>
      have hfalse : test c = false := hc c rfl
      simp [matchItems, Item.lengths, hfalse]

theorem matchItems_literal [DecidableEq α] (text : List α)
    (hrest : matchItems after items rest = some pieces) :
    matchItems after (literal text ++ items) (text ++ rest) =
      some (text.map ([·]) ++ pieces) := by
  induction text with
  | nil => exact hrest
  | cons c text ih => exact matchItems_one (beq_self_eq_true c) ih

/-- A greedy item takes a piece when no longer piece lets the later items match. -/
theorem matchItems_greedy (hleast : least ≤ piece.length) (hpiece : ∀ c ∈ piece, test c = true)
    (hrest : matchItems after items rest = some pieces)
    (hlonger : ∀ more rest', more ≠ [] → rest = more ++ rest' → (∀ c ∈ more, test c = true) →
      matchItems after items rest' = none) :
    matchItems after (.greedy least test :: items) (piece ++ rest) = some (piece :: pieces) := by
  have hfits : (Item.greedy least test).Fits piece := ⟨hleast, hpiece⟩
  refine findSome?_eq_of_first (· > ·) (x := piece.length) ?_
    (length_mem_lengths hfits) (attempt_length hrest) ?_
  · rw [Item.lengths, List.pairwise_reverse]
    exact List.pairwise_lt_range'
  · intro n hn hlong
    obtain ⟨hlength, -, htest⟩ := mem_lengths_iff.mp hn
    obtain ⟨k, rfl⟩ : ∃ k, n = piece.length + k := Nat.exists_eq_add_of_le (le_of_lt hlong)
    rw [List.length_append, Nat.add_le_add_iff_left] at hlength
    rw [List.take_length_add_append] at htest
    rw [List.drop_length_add_append, Option.map_eq_none_iff]
    refine hlonger (rest.take k) (rest.drop k) ?_ (List.take_append_drop k rest).symm
      fun c hc => htest c (List.mem_append_right _ hc)
    rw [ne_eq, List.eq_nil_iff_length_eq_zero, List.length_take, Nat.min_eq_left hlength]
    omega

/-- A greedy item takes the whole run. -/
theorem matchItems_greedy_run (hleast : least ≤ piece.length) (hpiece : ∀ c ∈ piece, test c = true)
    (hstop : ∀ c ∈ rest.head?, test c = false) (hrest : matchItems after items rest = some pieces) :
    matchItems after (.greedy least test :: items) (piece ++ rest) = some (piece :: pieces) := by
  refine matchItems_greedy hleast hpiece hrest ?_
  rintro (_ | ⟨c, more⟩) rest' hmore rfl htest
  · exact absurd rfl hmore
  · have hfalse : test c = false := hstop c rfl
    have htrue := htest c List.mem_cons_self
    rw [hfalse] at htrue
    cases htrue

/-- A lazy item takes a piece when no shorter piece lets the later items match. -/
theorem matchItems_lazy (hleast : least ≤ piece.length) (hpiece : ∀ c ∈ piece, test c = true)
    (hrest : matchItems after items rest = some pieces)
    (hshorter : ∀ less more, more ≠ [] → piece = less ++ more →
      matchItems after items (more ++ rest) = none) :
    matchItems after (.lazy least test :: items) (piece ++ rest) = some (piece :: pieces) := by
  have hfits : (Item.lazy least test).Fits piece := ⟨hleast, hpiece⟩
  refine findSome?_eq_of_first (· < ·) (x := piece.length) List.pairwise_lt_range'
    (length_mem_lengths hfits) (attempt_length hrest) ?_
  intro n _ hshort
  have hsplit : piece = piece.take n ++ piece.drop n := (List.take_append_drop n piece).symm
  rw [List.drop_append_of_le_length hshort.le, Option.map_eq_none_iff]
  refine hshorter (piece.take n) (piece.drop n) ?_ hsplit
  rw [ne_eq, List.drop_eq_nil_iff]
  omega

end First

end Backtracking
