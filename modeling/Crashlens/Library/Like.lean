import Mathlib.Data.List.Basic
import Mathlib.Data.List.Infix

/-!
# `LIKE` patterns

A pattern is read into tokens, with one character that stands for any text, one for any character
and one that takes the next character as it is. Characters are compared through `fold`, which is the
identity for `LIKE` and folds the case for `ILIKE`.

A text between two wildcards for any text asks for a substring as long as it has none of these
characters. With one of them it also matches a text no longer than itself that does not contain it.
-/

namespace Like

/-- The characters with a meaning of their own. -/
structure Wildcards (α : Type) where
  many : α
  one : α
  escape : α

inductive Token (α : Type) where
  | char (c : α)
  | one
  | many

section Tokens

variable {α : Type} [DecidableEq α] (w : Wildcards α)

def token (c : α) : Token α := if c = w.many then .many else if c = w.one then .one else .char c

/-- `none` for a pattern that ends in the escape character. -/
def tokens : List α → Option (List (Token α))
  | [] => some []
  | c :: cs =>
    if c = w.escape then
      match cs with
      | [] => none
      | d :: ds => (tokens ds).map (.char d :: ·)
    else (tokens cs).map (token w c :: ·)

def Wildcards.Plain (text : List α) : Prop := ∀ c ∈ text, c ≠ w.many ∧ c ≠ w.one ∧ c ≠ w.escape

instance (text : List α) : Decidable (w.Plain text) := List.decidableBAll _ _

theorem tokens_nil : tokens w [] = some [] := rfl

theorem tokens_escape (d : α) (cs : List α) :
    tokens w (w.escape :: d :: cs) = (tokens w cs).map (.char d :: ·) := by
  rw [tokens.eq_def]
  simp only [if_true]

theorem tokens_cons {c : α} (h : c ≠ w.escape) (cs : List α) :
    tokens w (c :: cs) = (tokens w cs).map (token w c :: ·) := by
  rw [tokens.eq_def]
  simp only [if_neg h]

variable {w} in
theorem tokens_plain {part : List α} (h : w.Plain part) (pattern : List α) :
    tokens w (part ++ pattern) = (tokens w pattern).map (part.map .char ++ ·) := by
  induction part with
  | nil => simp
  | cons c cs ih =>
      obtain ⟨⟨hmany, hone, hescape⟩, hcs⟩ := List.forall_mem_cons.mp h
      rw [List.cons_append, tokens_cons w hescape, ih hcs, token, if_neg hmany, if_neg hone,
        Option.map_map]
      rfl

end Tokens

section Matching

variable {α β : Type} [DecidableEq β] (fold : α → β)

def matchesText : List (Token α) → List α → Bool
  | [], text => text.isEmpty
  | .char c :: ts, d :: text => fold c = fold d && matchesText ts text
  | .one :: ts, _ :: text => matchesText ts text
  | .many :: ts, text => text.tails.any (matchesText ts)
  | _ :: _, [] => false

def Contains (text part : List α) : Prop := part.map fold <:+: text.map fold

instance (text part : List α) : Decidable (Contains fold text part) :=
  inferInstanceAs (Decidable (_ <:+: _))

variable {fold} {ts : List (Token α)} {text part : List α}

theorem matchesText_many : matchesText fold (.many :: ts) text = true ↔
    ∃ a b, text = a ++ b ∧ matchesText fold ts b = true := by
  simp only [matchesText, List.any_eq_true, List.mem_tails]
  constructor
  · rintro ⟨b, ⟨a, rfl⟩, hb⟩
    exact ⟨a, b, rfl, hb⟩
  · rintro ⟨a, b, rfl, hb⟩
    exact ⟨b, List.suffix_append a b, hb⟩

theorem matchesText_chars : matchesText fold (part.map .char ++ ts) text = true ↔
    ∃ a b, text = a ++ b ∧ part.map fold = a.map fold ∧ matchesText fold ts b = true := by
  induction part generalizing text with
  | nil =>
      constructor
      · intro h
        exact ⟨[], text, rfl, rfl, h⟩
      · rintro ⟨a, b, rfl, ha, hb⟩
        obtain rfl := List.map_eq_nil_iff.mp ha.symm
        exact hb
  | cons c cs ih =>
      cases text with
      | nil =>
          simp only [List.map_cons, List.cons_append, matchesText, Bool.false_eq_true, false_iff]
          rintro ⟨a, b, hab, ha, -⟩
          obtain ⟨rfl, -⟩ := List.append_eq_nil_iff.mp hab.symm
          cases ha
      | cons d text =>
          simp only [List.map_cons, List.cons_append, matchesText, Bool.and_eq_true,
            decide_eq_true_eq, ih]
          constructor
          · rintro ⟨hcd, a, b, rfl, ha, hb⟩
            exact ⟨d :: a, b, rfl, by rw [hcd, ha, List.map_cons], hb⟩
          · rintro ⟨a, b, hab, ha, hb⟩
            cases a with
            | nil => cases ha
            | cons e a =>
                rw [List.cons_append, List.cons.injEq] at hab
                rw [List.map_cons, List.cons.injEq] at ha
                exact ⟨ha.1.trans (congrArg fold hab.1).symm, a, b, hab.2, ha.2, hb⟩

theorem matchesText_contains :
    matchesText fold (.many :: (part.map .char ++ [.many])) text = true ↔
      Contains fold text part := by
  have hany : ∀ text : List α, matchesText fold [.many] text = true := fun text =>
    matchesText_many.mpr ⟨text, [], (List.append_nil text).symm, rfl⟩
  rw [matchesText_many]
  constructor
  · rintro ⟨a, b, rfl, hb⟩
    obtain ⟨m, c, rfl, hm, -⟩ := matchesText_chars.mp hb
    exact ⟨a.map fold, c.map fold, by rw [hm, List.map_append, List.map_append, List.append_assoc]⟩
  · rintro ⟨a, c, h⟩
    obtain ⟨am, c', rfl, ham, rfl⟩ := List.map_eq_append_iff.mp h.symm
    obtain ⟨a', m, rfl, rfl, hm⟩ := List.map_eq_append_iff.mp ham
    exact ⟨a', m ++ c', List.append_assoc .., matchesText_chars.mpr ⟨m, c', rfl, hm.symm, hany c'⟩⟩

/-- The text that takes `z` for any character and nothing for any text. -/
def instantiate (z : α) : List (Token α) → List α
  | [] => []
  | .char c :: ts => c :: instantiate z ts
  | .one :: ts => z :: instantiate z ts
  | .many :: ts => instantiate z ts

theorem matchesText_instantiate (z : α) (ts : List (Token α)) :
    matchesText fold ts (instantiate z ts) = true := by
  induction ts with
  | nil => rfl
  | cons t ts ih =>
      cases t with
      | char c => simp [instantiate, matchesText, ih]
      | one => exact ih
      | many => exact matchesText_many.mpr ⟨[], _, rfl, ih⟩

end Matching

section Fills

variable {α β : Type} {w : Wildcards α} {fold : α → β} {z : α}

/-- Tokens fill no more than the length of the text they are read from, and fill it alike only if
it is plain. -/
structure Fills (w : Wildcards α) (fold : α → β) (z : α) (part : List α)
    (ts : List (Token α)) : Prop where
  length : (instantiate z ts).length ≤ part.length
  chars : ∀ c ∈ instantiate z ts, c ∈ part ∨ c = z ∨ c = w.many
  alike : part.map fold = (instantiate z ts).map fold → w.Plain part

namespace Fills

variable {c d : α} {cs : List α} {ts : List (Token α)}

theorem nil : Fills w fold z [] [.many] where
  length := Nat.le_refl 0
  chars := fun _ hc => by cases hc
  alike := fun _ _ hc => by cases hc

/-- The last escape takes the wildcard that follows the text. -/
theorem escape_last (hescape : fold w.escape ≠ fold w.many) :
    Fills w fold z [w.escape] [.char w.many] where
  length := Nat.le_refl 1
  chars := fun _ hc => .inr (.inr (List.mem_singleton.mp hc))
  alike := fun h => absurd (List.cons.inj h).1 hescape

theorem escape (h : Fills w fold z cs ts) :
    Fills w fold z (w.escape :: d :: cs) (.char d :: ts) where
  length := by
    have hle := h.length
    simp only [instantiate, List.length_cons]
    omega
  chars := by
    intro e he
    rcases List.mem_cons.mp he with rfl | he
    · simp
    · rcases h.chars e he with he | he
      · exact .inl (by simp [he])
      · exact .inr he
  alike := by
    intro hsame
    have hlength := congrArg List.length hsame
    have hle := h.length
    simp only [List.length_map, instantiate, List.length_cons] at hlength
    omega

theorem many (h : Fills w fold z cs ts) : Fills w fold z (w.many :: cs) (.many :: ts) where
  length := h.length.trans (Nat.le_succ _)
  chars := fun c hc => (h.chars c hc).imp_left (List.mem_cons_of_mem _)
  alike := by
    intro hsame
    have hlength := congrArg List.length hsame
    have hle := h.length
    simp only [List.length_map, instantiate, List.length_cons] at hlength
    omega

theorem one (h : Fills w fold z cs ts) (hone : fold w.one ≠ fold z) :
    Fills w fold z (w.one :: cs) (.one :: ts) where
  length := Nat.succ_le_succ h.length
  chars := by
    intro e he
    rcases List.mem_cons.mp he with rfl | he
    · simp
    · exact (h.chars e he).imp_left (List.mem_cons_of_mem _)
  alike := fun hsame => absurd (List.cons.inj hsame).1 hone

theorem char (h : Fills w fold z cs ts) (hc : c ≠ w.many ∧ c ≠ w.one ∧ c ≠ w.escape) :
    Fills w fold z (c :: cs) (.char c :: ts) where
  length := Nat.succ_le_succ h.length
  chars := by
    intro e he
    rcases List.mem_cons.mp he with rfl | he
    · simp
    · exact (h.chars e he).imp_left (List.mem_cons_of_mem _)
  alike := fun hsame => List.forall_mem_cons.mpr ⟨hc, h.alike (List.cons.inj hsame).2⟩

end Fills

end Fills

/-! ## Patterns and texts -/

section Patterns

variable {α β : Type} [DecidableEq α] [DecidableEq β] (w : Wildcards α) (fold : α → β)

/-- `text LIKE pattern`; `none` where the pattern is an error. -/
def like (text pattern : List α) : Option Bool :=
  (tokens w pattern).map fun ts => matchesText fold ts text

variable {w fold} {text part : List α}

/-- A plain text between two wildcards asks for a substring. -/
theorem like_plain (hw : w.many ≠ w.escape) (h : w.Plain part) :
    like w fold text (w.many :: (part ++ [w.many])) = some (decide (Contains fold text part)) := by
  have htokens : tokens w (w.many :: (part ++ [w.many])) =
      some (.many :: (part.map .char ++ [.many])) := by
    rw [tokens_cons w hw, tokens_plain h, tokens_cons w hw, tokens_nil]
    simp [token]
  rw [like, htokens, Option.map_some, Option.some.injEq, Bool.eq_iff_iff, matchesText_contains,
    decide_eq_true_eq]

omit [DecidableEq β] in
theorem tokens_before_many (hone : fold w.one ≠ fold z) (hescape : fold w.escape ≠ fold w.many)
    (part : List α) :
    ∃ ts, tokens w (part ++ [w.many]) = some ts ∧ Fills w fold z part ts := by
  have hmany : w.many ≠ w.escape := fun h => hescape (congrArg fold h).symm
  induction hlength : part.length using Nat.strong_induction_on generalizing part with
  | h n ih =>
      subst hlength
      match part with
      | [] =>
          refine ⟨[.many], ?_, .nil⟩
          rw [List.nil_append, tokens_cons w hmany, tokens_nil, token, if_pos rfl]
          rfl
      | c :: cs =>
          by_cases hc : c = w.escape
          · subst hc
            match cs with
            | [] => exact ⟨[.char w.many], tokens_escape w w.many [], .escape_last hescape⟩
            | d :: ds =>
                have hshorter : ds.length < (w.escape :: d :: ds).length := by
                  rw [List.length_cons, List.length_cons]
                  omega
                obtain ⟨ts, htokens, hfills⟩ := ih ds.length hshorter ds rfl
                refine ⟨.char d :: ts, ?_, hfills.escape⟩
                rw [List.cons_append, List.cons_append, tokens_escape, htokens]
                rfl
          · obtain ⟨ts, htokens, hfills⟩ := ih cs.length (by simp) cs rfl
            refine ⟨token w c :: ts, ?_, ?_⟩
            · rw [List.cons_append, tokens_cons w hc, htokens]
              rfl
            · unfold token
              split_ifs with hcmany hcone
              · exact hcmany ▸ hfills.many
              · exact hcone ▸ hfills.one hone
              · exact hfills.char ⟨hcmany, hcone, hc⟩

/-- A text that is not plain matches another one that does not contain it. -/
theorem exists_like_of_not_plain (hone : fold w.one ≠ fold z)
    (hescape : fold w.escape ≠ fold w.many) (h : ¬ w.Plain part) :
    ∃ text, (∀ c ∈ text, c ∈ part ∨ c = z ∨ c = w.many) ∧
      like w fold text (w.many :: (part ++ [w.many])) = some true ∧ ¬ Contains fold text part := by
  have hmany : w.many ≠ w.escape := fun h => hescape (congrArg fold h).symm
  obtain ⟨ts, htokens, hfills⟩ := tokens_before_many hone hescape part
  refine ⟨instantiate z ts, hfills.chars, ?_, ?_⟩
  · rw [like, tokens_cons w hmany, htokens, Option.map_map]
    simp only [token, if_true, Option.map_some, Function.comp_apply, Option.some.injEq]
    exact matchesText_many.mpr ⟨[], _, rfl, matchesText_instantiate z ts⟩
  · intro hcontains
    have hlength : ((instantiate z ts).map fold).length ≤ (part.map fold).length := by
      rw [List.length_map, List.length_map]
      exact hfills.length
    exact h (hfills.alike (hcontains.eq_of_length_le hlength))

end Patterns

end Like
