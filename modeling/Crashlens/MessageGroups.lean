import Crashlens.Transactions
import Mathlib.Data.List.TakeWhile

/-!
# Messages that differ in a number

The three substitutions of `normalizeMessage` match within runs of word characters and hyphens, and
what decides a match ends with the character after such a run. So a message falls apart at the other
characters, and a number that stands between two of them is replaced on its own: by `<hex>` where it
has sixteen digits or more, by `<n>` where it has fewer.
-/

namespace Crashlens

/-! ## Substitution across a border -/

section Border

variable {inside : CodePoint → Bool} {matched : Option CodePoint → PyStr → ℕ}

/-- A match stays within the run of `inside` characters it begins in, and what follows the first
other character has no say in it. -/
structure WithinRuns (inside : CodePoint → Bool) (matched : Option CodePoint → PyStr → ℕ) :
    Prop where
  within : ∀ prev s, matched prev s ≤ (s.takeWhile inside).length
  decided : ∀ prev s t, (∃ c ∈ s, inside c = false) → matched prev (s ++ t) = matched prev s

def EndsOutside (inside : CodePoint → Bool) (s : PyStr) : Prop :=
  ∀ c ∈ s.getLast?, inside c = false

instance (inside : CodePoint → Bool) (s : PyStr) : Decidable (EndsOutside inside s) :=
  decidable_of_iff (s.getLast?.all (! inside ·) = true)
    (by simp [EndsOutside, Option.all_eq_true])

def BeginsOutside (inside : CodePoint → Bool) (s : PyStr) : Prop :=
  ∀ c ∈ s.head?, inside c = false

instance (inside : CodePoint → Bool) (s : PyStr) : Decidable (BeginsOutside inside s) :=
  decidable_of_iff (s.head?.all (! inside ·) = true)
    (by simp [BeginsOutside, Option.all_eq_true])

theorem EndsOutside.mem {c : CodePoint} {s : PyStr} (h : EndsOutside inside (c :: s)) :
    ∃ a ∈ c :: s, inside a = false := by
  obtain ⟨a, ha⟩ := Option.isSome_iff_exists.mp (List.getLast?_isSome.mpr (List.cons_ne_nil c s))
  exact ⟨a, List.mem_of_getLast? ha, h a ha⟩

theorem EndsOutside.tail {c : CodePoint} {s : PyStr} (h : EndsOutside inside (c :: s)) :
    EndsOutside inside s := by
  intro a ha
  refine h a ?_
  rw [Option.mem_def, List.getLast?_cons, ha, Option.getD_some]

/-- Text that ends outside does not end within a run. -/
theorem EndsOutside.getLast?_tail {c : CodePoint} {s : PyStr} (h : EndsOutside inside (c :: s))
    (hc : inside c = true) : (c :: s).getLast? = s.getLast? := by
  cases hs : s.getLast? with
  | some a => rw [List.getLast?_cons, hs, Option.getD_some]
  | none =>
      obtain rfl := List.getLast?_eq_none_iff.mp hs
      rw [h c rfl] at hc
      cases hc

theorem within_cons {c : CodePoint} {s : PyStr} {n : ℕ}
    (h : n + 1 ≤ ((c :: s).takeWhile inside).length) :
    inside c = true ∧ n ≤ (s.takeWhile inside).length := by
  rw [List.takeWhile_cons] at h
  split_ifs at h with hc
  · exact ⟨hc, Nat.le_of_succ_le_succ h⟩
  · cases h

theorem last_or_cons (c : CodePoint) (s : PyStr) (prev : Option CodePoint) :
    (c :: s).getLast?.or prev = s.getLast?.or (some c) := by
  rw [List.getLast?_cons]
  cases s.getLast? <;> rfl

variable (hm : WithinRuns inside matched) {rep : PyStr}

include hm

theorem substitute_append {p : PyStr} (hp : EndsOutside inside p) {prev : Option CodePoint}
    {skip : ℕ} (hskip : skip ≤ (p.takeWhile inside).length) (t : PyStr) :
    substitute matched rep prev skip (p ++ t) =
      substitute matched rep prev skip p ++
        substitute matched rep (p.getLast?.or prev) 0 t := by
  induction p generalizing prev skip with
  | nil =>
      obtain rfl := Nat.le_zero.mp hskip
      rfl
  | cons c s ih =>
      rw [last_or_cons]
      cases skip with
      | succ skip => exact ih hp.tail (within_cons hskip).2
      | zero =>
          have hsame := hm.decided prev (c :: s) t hp.mem
          rw [List.cons_append] at hsame
          rw [List.cons_append, substitute, substitute, hsame]
          cases hmatch : matched prev (c :: s) with
          | zero =>
              dsimp only
              rw [ih hp.tail (Nat.zero_le _), List.cons_append]
          | succ n =>
              have hwithin := within_cons (hmatch ▸ hm.within prev (c :: s))
              dsimp only
              rw [ih hp.tail hwithin.2, List.append_assoc]

/-- The last character is left alone when it is an outside one. -/
theorem endsOutside_substitute {p : PyStr} (hp : EndsOutside inside p) {prev : Option CodePoint}
    {skip : ℕ} (hskip : skip ≤ (p.takeWhile inside).length) :
    (substitute matched rep prev skip p).getLast? = p.getLast? := by
  induction p generalizing prev skip with
  | nil => cases skip <;> rfl
  | cons c s ih =>
      cases skip with
      | succ skip =>
          obtain ⟨hc, hs⟩ := within_cons hskip
          rw [substitute, ih hp.tail hs, hp.getLast?_tail hc]
      | zero =>
          rw [substitute]
          cases hmatch : matched prev (c :: s) with
          | zero =>
              dsimp only
              rw [List.getLast?_cons, ih hp.tail (Nat.zero_le _), List.getLast?_cons]
          | succ n =>
              obtain ⟨hc, hs⟩ := within_cons (hmatch ▸ hm.within prev (c :: s))
              dsimp only
              rw [List.getLast?_append, ih hp.tail hs, ← hp.getLast?_tail hc, List.getLast?_cons,
                Option.some_or]

theorem substitute_head? {s : PyStr} (hs : BeginsOutside inside s) {prev : Option CodePoint} :
    (substitute matched rep prev 0 s).head? = s.head? := by
  cases s with
  | nil => rfl
  | cons c s =>
      have hzero : matched prev (c :: s) = 0 := by
        have hwithin := hm.within prev (c :: s)
        rw [List.takeWhile_cons, hs c rfl] at hwithin
        exact Nat.le_zero.mp hwithin
      rw [substitute, hzero]
      rfl

end Border

/-! ## The three patterns -/

/-- What Python's Unicode tables say of the ASCII characters, and that a decimal digit is
alphanumeric. -/
structure Runtime.Classes (rt : Runtime) : Prop where
  alnum : ∀ c : CodePoint, c.val < 128 → (rt.isAlnum c = true ↔ 48 ≤ c.val ∧ c.val ≤ 57 ∨
    65 ≤ c.val ∧ c.val ≤ 90 ∨ 97 ≤ c.val ∧ c.val ≤ 122)
  decimal : ∀ c : CodePoint, c.val < 128 →
    ((rt.decimal c).isSome = true ↔ 48 ≤ c.val ∧ c.val ≤ 57)
  decimal_alnum : ∀ c, (rt.decimal c).isSome = true → rt.isAlnum c = true

/-- A word character or a hyphen. -/
def inToken (rt : Runtime) (c : CodePoint) : Bool := isWord rt c || c.val = 0x2D

def isAsciiDigit (c : CodePoint) : Bool := 48 ≤ c.val && c.val ≤ 57

section Patterns

variable {rt : Runtime}

theorem inToken_of_isWord {c : CodePoint} (h : isWord rt c = true) : inToken rt c = true := by
  rw [inToken, h, Bool.true_or]

theorem isWord_of_outside {c : CodePoint} (h : inToken rt c = false) : isWord rt c = false :=
  (Bool.or_eq_false_iff.mp h).1

theorem takeWhile_length_mono {p q : CodePoint → Bool} (h : ∀ c, p c = true → q c = true)
    (s : PyStr) : (s.takeWhile p).length ≤ (s.takeWhile q).length := by
  induction s with
  | nil => exact Nat.le_refl _
  | cons c s ih =>
      rw [List.takeWhile_cons, List.takeWhile_cons]
      by_cases hp : p c = true
      · rw [if_pos hp, if_pos (h c hp), List.length_cons, List.length_cons]
        exact Nat.succ_le_succ ih
      · rw [if_neg hp]
        exact Nat.zero_le _

/-- A run ends before the first other character, whatever follows that. -/
theorem takeWhile_append_of_stop {p : CodePoint → Bool} {s : PyStr} (h : ∃ c ∈ s, p c = false)
    (t : PyStr) : (s ++ t).takeWhile p = s.takeWhile p := by
  obtain ⟨c, hc, hstop⟩ := h
  have hlength : ¬ (s.takeWhile p).length = s.length := fun hlength => by
    have hall := List.takeWhile_eq_self_iff.mp (List.takeWhile_prefix p |>.eq_of_length hlength)
    rw [hall c hc] at hstop
    cases hstop
  exact List.takeWhile_append.trans (if_neg hlength)

theorem takeWhile_length_lt {p : CodePoint → Bool} {s : PyStr} (h : ∃ c ∈ s, p c = false) :
    (s.takeWhile p).length < s.length := by
  obtain ⟨c, hc, hstop⟩ := h
  refine Nat.lt_of_le_of_ne (List.takeWhile_prefix p).length_le fun hlength => ?_
  have hall := List.takeWhile_eq_self_iff.mp ((List.takeWhile_prefix p).eq_of_length hlength)
  rw [hall c hc] at hstop
  cases hstop

theorem length_le_takeWhile {p : CodePoint → Bool} {u : PyStr} (h : ∀ c ∈ u, p c = true)
    (t : PyStr) : u.length ≤ ((u ++ t).takeWhile p).length := by
  rw [List.takeWhile_append_of_pos h, List.length_append]
  exact Nat.le_add_right ..

section Uuid

/-- What stands at the beginning is cut off, and the rest may go on. -/
structure Cuts (inside : CodePoint → Bool) (n : ℕ) (f : PyStr → Option PyStr) : Prop where
  split : ∀ s t, f s = some t → ∃ u, s = u ++ t ∧ u.length = n ∧ ∀ c ∈ u, inside c = true
  extend : ∀ s t, (∃ c ∈ s, inside c = false) → f (s ++ t) = (f s).map (· ++ t)

variable {inside : CodePoint → Bool} {f g : PyStr → Option PyStr} {m n : ℕ}

theorem Cuts.bind (hf : Cuts inside m f) (hg : Cuts inside n g) :
    Cuts inside (m + n) fun s => (f s).bind g where
  split s t h := by
    obtain ⟨s', hs', ht⟩ := Option.bind_eq_some_iff.mp h
    obtain ⟨u, rfl, hu, hinu⟩ := hf.split s s' hs'
    obtain ⟨v, rfl, hv, hinv⟩ := hg.split s' t ht
    refine ⟨u ++ v, (List.append_assoc ..).symm, by rw [List.length_append, hu, hv], ?_⟩
    exact fun c hc => (List.mem_append.mp hc).elim (hinu c) (hinv c)
  extend s t hs := by
    rw [hf.extend s t hs]
    cases hcut : f s with
    | none => rfl
    | some s' =>
        obtain ⟨u, rfl, -, hin⟩ := hf.split s s' hcut
        obtain ⟨c, hc, hout⟩ := hs
        have hrest : ∃ c ∈ s', inside c = false := by
          refine ⟨c, (List.mem_append.mp hc).resolve_left fun hu => ?_, hout⟩
          rw [hin c hu] at hout
          cases hout
        exact hg.extend s' t hrest

theorem cuts_hexGroup (h : ∀ c, isHexDigit c = true → inside c = true) (n : ℕ) :
    Cuts inside n (hexGroup n) where
  split s t ht := by
    unfold hexGroup at ht
    split_ifs at ht with hn
    cases ht
    exact ⟨s.take n, (List.take_append_drop n s).symm, hn.1, fun c hc =>
      h c (List.all_eq_true.mp hn.2 c hc)⟩
  extend s t hs := by
    unfold hexGroup
    by_cases hn : n ≤ s.length
    · rw [List.take_append_of_le_length hn, List.drop_append_of_le_length hn]
      split_ifs
      · rfl
      · rfl
    · obtain ⟨c, hc, hout⟩ := hs
      have hshort : ¬ (s.take n).length = n := by
        rw [List.length_take]
        omega
      have hother : ¬ ((s ++ t).take n).all isHexDigit = true := fun hall => by
        have hmem : c ∈ (s ++ t).take n := by
          rw [List.take_append, List.take_of_length_le (by omega)]
          exact List.mem_append_left _ hc
        rw [h c (List.all_eq_true.mp hall c hmem)] at hout
        cases hout
      rw [if_neg fun h => hother h.2, if_neg fun h => hshort h.1]
      rfl

theorem cuts_hyphen (h : ∀ c : CodePoint, c.val = 0x2D → inside c = true) :
    Cuts inside 1 hyphen where
  split s t ht := by
    cases s with
    | nil => cases ht
    | cons c s =>
        rw [hyphen] at ht
        split_ifs at ht with hc
        cases ht
        exact ⟨[c], rfl, rfl, fun d hd => List.mem_singleton.mp hd ▸ h c hc⟩
  extend s t hs := by
    cases s with
    | nil =>
        obtain ⟨c, hc, -⟩ := hs
        cases hc
    | cons c s =>
        rw [List.cons_append, hyphen, hyphen]
        split_ifs
        · rfl
        · rfl

end Uuid

theorem isWord_of_isHexDigit (hrt : rt.Classes) {c : CodePoint} (h : isHexDigit c = true) :
    isWord rt c = true := by
  simp only [isHexDigit, Bool.or_eq_true, Bool.and_eq_true, decide_eq_true_eq] at h
  rw [isWord, (hrt.alnum c (by omega)).mpr (by omega), Bool.true_or]

theorem isHexDigit_of_isAsciiDigit {c : CodePoint} (h : isAsciiDigit c = true) :
    isHexDigit c = true := by
  simp only [isAsciiDigit, Bool.and_eq_true, decide_eq_true_eq] at h
  simp only [isHexDigit, Bool.or_eq_true, Bool.and_eq_true, decide_eq_true_eq]
  omega

theorem withinRuns_uuidMatch (hrt : rt.Classes) : WithinRuns (inToken rt) uuidMatch := by
  have hhex (n : ℕ) : Cuts (inToken rt) n (hexGroup n) :=
    cuts_hexGroup (fun c hc => inToken_of_isWord (isWord_of_isHexDigit hrt hc)) n
  have hhyphen : Cuts (inToken rt) 1 hyphen :=
    cuts_hyphen fun c hc => by rw [inToken, hc, decide_eq_true rfl, Bool.or_true]
  have hcuts := (((((hhex 8).bind hhyphen).bind ((hhex 4).bind hhyphen)).bind
    ((hhex 4).bind hhyphen)).bind ((hhex 4).bind hhyphen)).bind (hhex 12)
  have hmatch (prev : Option CodePoint) (s : PyStr) : uuidMatch prev s =
      if ((((((hexGroup 8 s).bind hyphen).bind fun s => (hexGroup 4 s).bind hyphen).bind
        fun s => (hexGroup 4 s).bind hyphen).bind fun s => (hexGroup 4 s).bind hyphen).bind
        (hexGroup 12)).isSome then 36 else 0 := by
    simp only [uuidMatch, Option.bind_eq_bind, Option.bind_assoc]
  constructor
  · intro prev s
    rw [hmatch]
    split_ifs with hsome
    · obtain ⟨t, ht⟩ := Option.isSome_iff_exists.mp hsome
      obtain ⟨u, rfl, hu, hin⟩ := hcuts.split s t ht
      exact hu.symm.le.trans (length_le_takeWhile hin t)
    · exact Nat.zero_le _
  · intro prev s t hs
    have hextend := hcuts.extend s t hs
    rw [hmatch, hmatch, hextend, Option.isSome_map]

theorem backtrack_le (s : PyStr) (least k : ℕ) : backtrack rt s least k ≤ k := by
  induction k with
  | zero => exact Nat.le_refl _
  | succ k ih =>
      rw [backtrack]
      split_ifs
      · exact Nat.le_refl _
      · exact Nat.le_succ_of_le ih

theorem backtrack_append {s : PyStr} {k : ℕ} (h : k < s.length) (least : ℕ) (t : PyStr) :
    backtrack rt (s ++ t) least k = backtrack rt s least k := by
  induction k with
  | zero => rfl
  | succ k ih =>
      rw [backtrack, backtrack, ih (Nat.lt_of_succ_lt h), List.getElem?_append_left h,
        List.getElem?_append_left (Nat.lt_of_succ_lt h)]

/-- Nothing is long enough. -/
theorem backtrack_of_lt (s : PyStr) {least k : ℕ} (h : k < least) : backtrack rt s least k = 0 := by
  induction k with
  | zero => rfl
  | succ k ih =>
      rw [backtrack, if_neg fun hk => absurd hk.1 (Nat.not_le.mpr h), ih (Nat.lt_of_succ_lt h)]

theorem not_hex_of_outside (hrt : rt.Classes) {s : PyStr} (h : ∃ c ∈ s, inToken rt c = false) :
    ∃ c ∈ s, isHexDigit c = false := by
  obtain ⟨c, hc, hout⟩ := h
  refine ⟨c, hc, Bool.eq_false_iff.mpr fun hhex => ?_⟩
  rw [inToken_of_isWord (isWord_of_isHexDigit hrt hhex)] at hout
  cases hout

theorem hexRun_le (hrt : rt.Classes) (s : PyStr) :
    (s.takeWhile isHexDigit).length ≤ (s.takeWhile (inToken rt)).length :=
  takeWhile_length_mono (fun _ hc => inToken_of_isWord (isWord_of_isHexDigit hrt hc)) s

theorem withinRuns_longHexMatch (hrt : rt.Classes) : WithinRuns (inToken rt) (longHexMatch rt) := by
  constructor
  · intro prev s
    unfold longHexMatch
    split_ifs
    · exact (backtrack_le s 16 _).trans (hexRun_le hrt s)
    · exact Nat.zero_le _
  · intro prev s t hs
    have hhex := not_hex_of_outside hrt hs
    unfold longHexMatch
    rw [takeWhile_append_of_stop hhex, backtrack_append (takeWhile_length_lt hhex)]
    cases s with
    | nil =>
        obtain ⟨c, hc, -⟩ := hs
        cases hc
    | cons c s => rfl

/-- The prefix of a hexadecimal literal is made of word characters. -/
theorem inToken_of_hexPrefix (hrt : rt.Classes) {z x : CodePoint} (hz : z.val = 0x30)
    (hx : x.val = 0x78 ∨ x.val = 0x58) : inToken rt z = true ∧ inToken rt x = true := by
  constructor
  · refine inToken_of_isWord ?_
    rw [isWord, (hrt.alnum z (by omega)).mpr (by omega), Bool.true_or]
  · refine inToken_of_isWord ?_
    rw [isWord, (hrt.alnum x (by omega)).mpr (by omega), Bool.true_or]

theorem withinRuns_hexMatch (hrt : rt.Classes) : WithinRuns (inToken rt) (hexMatch rt) := by
  have hlong := withinRuns_longHexMatch hrt
  constructor
  · intro prev s
    unfold hexMatch
    split
    · next z x rest =>
        split_ifs with hcond
        · have hpre := inToken_of_hexPrefix hrt hcond.1 hcond.2.1
          have hle : backtrack rt rest 1 _ ≤ _ := (backtrack_le rest 1 _).trans (hexRun_le hrt rest)
          split
          · exact hlong.within prev (z :: x :: rest)
          · next k hk =>
              rw [hk] at hle
              rw [List.takeWhile_cons_of_pos hpre.1, List.takeWhile_cons_of_pos hpre.2,
                List.length_cons, List.length_cons]
              omega
        · exact hlong.within prev (z :: x :: rest)
    · exact hlong.within prev s
  · intro prev s t hs
    rcases s with _ | ⟨z, _ | ⟨x, rest⟩⟩
    · obtain ⟨c, hc, -⟩ := hs
      cases hc
    · have hz : ¬ z.val = 0x30 := fun hz => by
        obtain ⟨c, hc, hout⟩ := hs
        rw [List.mem_singleton.mp hc, (inToken_of_hexPrefix hrt hz (x := CodePoint.ofNat 0x78)
          (.inl rfl)).1] at hout
        cases hout
      have hshort : hexMatch rt prev ([z] ++ t) = longHexMatch rt prev ([z] ++ t) := by
        cases t with
        | nil => rfl
        | cons x t => exact if_neg fun h => hz h.1
      rw [hshort, hlong.decided prev [z] t hs]
      rfl
    · have hsame := hlong.decided prev (z :: x :: rest) t hs
      rw [List.cons_append, List.cons_append] at hsame ⊢
      simp only [hexMatch]
      split_ifs with hcond
      · have hpre := inToken_of_hexPrefix hrt hcond.1 hcond.2.1
        have hrest : ∃ c ∈ rest, inToken rt c = false := by
          obtain ⟨c, hc, hout⟩ := hs
          rcases List.mem_cons.mp hc with rfl | hc
          · rw [hpre.1] at hout
            cases hout
          · rcases List.mem_cons.mp hc with rfl | hc
            · rw [hpre.2] at hout
              cases hout
            · exact ⟨c, hc, hout⟩
        have hhex := not_hex_of_outside hrt hrest
        rw [takeWhile_append_of_stop hhex, backtrack_append (takeWhile_length_lt hhex), hsame]
      · exact hsame

theorem inToken_of_decimal (hrt : rt.Classes) {c : CodePoint}
    (h : (rt.decimal c).isSome = true) : inToken rt c = true :=
  inToken_of_isWord (by rw [isWord, hrt.decimal_alnum c h, Bool.true_or])

theorem withinRuns_numMatch (hrt : rt.Classes) : WithinRuns (inToken rt) (numMatch rt) := by
  constructor
  · exact fun prev s => takeWhile_length_mono (fun c hc => inToken_of_decimal hrt hc) s
  · intro prev s t ⟨c, hc, hout⟩
    have hstop : ∃ c ∈ s, (rt.decimal c).isSome = false := by
      refine ⟨c, hc, Bool.eq_false_iff.mpr fun hdec => ?_⟩
      rw [inToken_of_decimal hrt hdec] at hout
      cases hout
    exact congrArg List.length (takeWhile_append_of_stop hstop t)

end Patterns

/-! ## A number between two borders -/

section Number

variable {rt : Runtime} {matched : Option CodePoint → PyStr → ℕ} {rep : PyStr}

theorem substitute_skip (d t : PyStr) (prev : Option CodePoint) :
    substitute matched rep prev d.length (d ++ t) =
      substitute matched rep (d.getLast?.or prev) 0 t := by
  induction d generalizing prev with
  | nil => rfl
  | cons c d ih =>
      rw [last_or_cons]
      exact ih (some c)

/-- A match of all of `d`. -/
theorem substitute_matched {d : PyStr} (hd : d ≠ []) {prev : Option CodePoint} {t : PyStr}
    (h : matched prev (d ++ t) = d.length) :
    substitute matched rep prev 0 (d ++ t) =
      rep ++ substitute matched rep (d.getLast?.or prev) 0 t := by
  cases d with
  | nil => exact absurd rfl hd
  | cons c d =>
      rw [List.cons_append] at h ⊢
      rw [substitute, h, last_or_cons]
      exact congrArg (rep ++ ·) (substitute_skip d t (some c))

theorem substitute_unmatched {d : PyStr} {prev : Option CodePoint} {t : PyStr}
    (h : ∀ prev v, v ≠ [] → v <:+ d → matched prev (v ++ t) = 0) :
    substitute matched rep prev 0 (d ++ t) =
      d ++ substitute matched rep (d.getLast?.or prev) 0 t := by
  induction d generalizing prev with
  | nil => rfl
  | cons c d ih =>
      have hzero := h prev (c :: d) (List.cons_ne_nil c d) List.suffix_rfl
      rw [List.cons_append] at hzero
      rw [List.cons_append, substitute, hzero, last_or_cons]
      exact congrArg (c :: ·) (ih fun prev v hv hsuffix =>
        h prev v hv (hsuffix.trans (List.suffix_cons c d)))

/-- Where the text begins outside, the character before it does not matter. -/
theorem substitute_prev {inside : CodePoint → Bool} (hm : WithinRuns inside matched) {s : PyStr}
    (hs : BeginsOutside inside s) (prev prev' : Option CodePoint) :
    substitute matched rep prev 0 s = substitute matched rep prev' 0 s := by
  cases s with
  | nil => rfl
  | cons c s =>
      have hzero (prev : Option CodePoint) : matched prev (c :: s) = 0 := by
        have hwithin := hm.within prev (c :: s)
        rw [List.takeWhile_cons, hs c rfl] at hwithin
        exact Nat.le_zero.mp hwithin
      rw [substitute, substitute, hzero, hzero]

section Digits

variable (hrt : rt.Classes) {d s : PyStr} (hdigits : ∀ c ∈ d, isAsciiDigit c = true)
  (hs : BeginsOutside (inToken rt) s)

section Run

include hdigits hs

theorem run_digits {p : CodePoint → Bool} (hin : ∀ c, isAsciiDigit c = true → p c = true)
    (hout : ∀ c, p c = true → inToken rt c = true) : (d ++ s).takeWhile p = d := by
  rw [List.takeWhile_append_of_pos fun c hc => hin c (hdigits c hc)]
  cases s with
  | nil => rw [List.takeWhile_nil, List.append_nil]
  | cons c s =>
      have hstop : ¬ p c = true := fun hp => by
        have hin := hout c hp
        rw [hs c rfl] at hin
        cases hin
      rw [List.takeWhile_cons_of_neg hstop, List.append_nil]

end Run

include hrt

theorem isWord_of_isAsciiDigit {c : CodePoint} (h : isAsciiDigit c = true) :
    isWord rt c = true :=
  isWord_of_isHexDigit hrt (isHexDigit_of_isAsciiDigit h)

include hdigits hs

theorem uuidMatch_digits (prev : Option CodePoint) : uuidMatch prev (d ++ s) = 0 := by
  have hrun := run_digits hdigits hs
    (fun c hc => inToken_of_isWord (isWord_of_isAsciiDigit hrt hc)) (fun c hc => hc)
  refine if_neg fun hsome => ?_
  obtain ⟨t, ht⟩ := Option.isSome_iff_exists.mp hsome
  simp only [Option.bind_eq_bind, Option.bind_assoc, Option.bind_eq_some_iff] at ht
  obtain ⟨s₁, h₁, s₂, h₂, -⟩ := ht
  have hcuts : Cuts (inToken rt) 8 (hexGroup 8) :=
    cuts_hexGroup (fun c hc => inToken_of_isWord (isWord_of_isHexDigit hrt hc)) 8
  obtain ⟨u, hu, -, hin⟩ := hcuts.split _ _ h₁
  cases s₁ with
  | nil => cases h₂
  | cons c s₁ =>
      rw [hyphen] at h₂
      split_ifs at h₂ with hc
      have htoken : inToken rt c = true := by rw [inToken, hc, decide_eq_true rfl, Bool.or_true]
      have hmem : c ∈ d := by
        rw [← hrun, hu, List.takeWhile_append_of_pos hin, List.takeWhile_cons_of_pos htoken]
        exact List.mem_append_right _ List.mem_cons_self
      have hdigit := hdigits c hmem
      simp [isAsciiDigit, hc] at hdigit

theorem hexMatch_digits (hd : d ≠ []) (prev : Option CodePoint) :
    hexMatch rt prev (d ++ s) = longHexMatch rt prev (d ++ s) := by
  have hno {z x : CodePoint} {rest : PyStr} (h : d ++ s = z :: x :: rest) :
      ¬ (x.val = 0x78 ∨ x.val = 0x58) := fun hx => by
    obtain ⟨c, d, rfl⟩ := List.exists_cons_of_ne_nil hd
    cases d with
    | nil =>
        cases s with
        | nil => cases h
        | cons y s =>
            cases h
            have hword := (hrt.alnum x (by omega)).mpr (by omega)
            have hout := isWord_of_outside (hs x rfl)
            rw [isWord, hword, Bool.true_or] at hout
            cases hout
    | cons y d =>
        cases h
        have hdigit := hdigits x (List.mem_cons_of_mem _ List.mem_cons_self)
        simp only [isAsciiDigit, Bool.and_eq_true, decide_eq_true_eq] at hdigit
        omega
  generalize htext : d ++ s = text at hno
  rcases text with _ | ⟨z, _ | ⟨x, rest⟩⟩
  · rfl
  · rfl
  · exact if_neg fun h => hno rfl h.2.1

theorem longHexMatch_digits_short (hshort : d.length < 16) (prev : Option CodePoint) :
    longHexMatch rt prev (d ++ s) = 0 := by
  have hrun := run_digits hdigits hs (fun c hc => isHexDigit_of_isAsciiDigit hc)
    (fun c hc => inToken_of_isWord (isWord_of_isHexDigit hrt hc))
  unfold longHexMatch
  split_ifs
  · rw [hrun, backtrack_of_lt _ hshort]
  · rfl

theorem longHexMatch_digits_long (hlong : 16 ≤ d.length) {prev : Option CodePoint}
    (hprev : (prev.map (isWord rt)).getD false = false) :
    longHexMatch rt prev (d ++ s) = d.length := by
  have hrun := run_digits hdigits hs (fun c hc => isHexDigit_of_isAsciiDigit hc)
    (fun c hc => inToken_of_isWord (isWord_of_isHexDigit hrt hc))
  have hword {i : ℕ} (hi : i < d.length) : ((d ++ s)[i]?.map (isWord rt)).getD false = true := by
    rw [List.getElem?_append_left hi, List.getElem?_eq_getElem hi]
    exact isWord_of_isAsciiDigit hrt (hdigits _ (List.getElem_mem hi))
  have hafter : ((d ++ s)[d.length]?.map (isWord rt)).getD false = false := by
    rw [List.getElem?_append_right (Nat.le_refl _), Nat.sub_self, ← List.head?_eq_getElem?]
    cases s with
    | nil => rfl
    | cons c s => exact isWord_of_outside (hs c rfl)
  have hhead : (d ++ s).head? = (d ++ s)[0]? := List.head?_eq_getElem?
  obtain ⟨k, hk⟩ : ∃ k, d.length = k + 1 := ⟨d.length - 1, by omega⟩
  have hstart : wordBoundary rt prev (d ++ s).head? = true := by
    rw [wordBoundary, hprev, hhead, hword (by omega)]
    rfl
  have hend : wordBoundary rt (d ++ s)[k]? (d ++ s)[k + 1]? = true := by
    rw [wordBoundary, hword (by omega), ← hk, hafter]
    rfl
  rw [longHexMatch, if_pos hstart, hrun, hk, backtrack, if_pos ⟨hk ▸ hlong, hend⟩]

end Digits

/-- One pass over a text in three parts, when it makes `mid` of the one between the borders. -/
theorem substitute_between {inside : CodePoint → Bool} (hm : WithinRuns inside matched)
    {p d mid s : PyStr} (hp : EndsOutside inside p) (hs : BeginsOutside inside s)
    (hmid : ∃ prev, substitute matched rep p.getLast? 0 (d ++ s) =
      mid ++ substitute matched rep prev 0 s) :
    substitute matched rep none 0 (p ++ (d ++ s)) =
      substitute matched rep none 0 p ++ (mid ++ substitute matched rep none 0 s) := by
  obtain ⟨prev, hmid⟩ := hmid
  rw [substitute_append hm hp (Nat.zero_le _), Option.or_none, hmid,
    substitute_prev hm hs prev none]

theorem EndsOutside.substitute {inside : CodePoint → Bool} (hm : WithinRuns inside matched)
    {p : PyStr} (hp : EndsOutside inside p) :
    EndsOutside inside (substitute matched rep none 0 p) := fun c hc =>
  hp c ((endsOutside_substitute hm hp (Nat.zero_le _)).symm.trans hc)

theorem BeginsOutside.substitute {inside : CodePoint → Bool} (hm : WithinRuns inside matched)
    {s : PyStr} (hs : BeginsOutside inside s) :
    BeginsOutside inside (substitute matched rep none 0 s) := fun c hc =>
  hs c ((substitute_head? hm hs).symm.trans hc)

variable (hrt : rt.Classes) {d s : PyStr} (hd : d ≠ [])
  (hdigits : ∀ c ∈ d, isAsciiDigit c = true) (hs : BeginsOutside (inToken rt) s)

include hrt hdigits hs

theorem uuids_digits (prev : Option CodePoint) : ∃ prev',
    substitute uuidMatch rep prev 0 (d ++ s) = d ++ substitute uuidMatch rep prev' 0 s :=
  ⟨_, substitute_unmatched fun prev _ _ hsuffix =>
    uuidMatch_digits hrt (fun c hc => hdigits c (hsuffix.subset hc)) hs prev⟩

include hd

theorem hexes_digits {prev : Option CodePoint} (hprev : ∀ c, prev = some c → isWord rt c = false) :
    ∃ prev', substitute (hexMatch rt) rep prev 0 (d ++ s) =
      (if 16 ≤ d.length then rep else d) ++ substitute (hexMatch rt) rep prev' 0 s := by
  split_ifs with hlong
  · have houtside : (prev.map (isWord rt)).getD false = false := by
      cases prev with
      | none => rfl
      | some c => exact hprev c rfl
    refine ⟨_, substitute_matched hd ?_⟩
    rw [hexMatch_digits hrt hdigits hs hd, longHexMatch_digits_long hrt hdigits hs hlong houtside]
  · refine ⟨_, substitute_unmatched fun prev v hv hsuffix => ?_⟩
    have hv' : ∀ c ∈ v, isAsciiDigit c = true := fun c hc => hdigits c (hsuffix.subset hc)
    have hle := hsuffix.length_le
    rw [hexMatch_digits hrt hv' hs hv, longHexMatch_digits_short hrt hv' hs (by omega)]

theorem nums_digits (prev : Option CodePoint) : ∃ prev',
    substitute (numMatch rt) rep prev 0 (d ++ s) =
      rep ++ substitute (numMatch rt) rep prev' 0 s := by
  refine ⟨_, substitute_matched hd (congrArg List.length ?_)⟩
  refine run_digits hdigits hs (fun c hc => ?_) (fun c hc => inToken_of_decimal hrt hc)
  simp only [isAsciiDigit, Bool.and_eq_true, decide_eq_true_eq] at hc
  exact (hrt.decimal c (by omega)).mpr hc

omit hd hdigits hs

/-- There is no digit in `<hex>`. -/
theorem nums_hexTag (prev : Option CodePoint) (s : PyStr) : ∃ prev',
    substitute (numMatch rt) rep prev 0 (py "<hex>" ++ s) =
      py "<hex>" ++ substitute (numMatch rt) rep prev' 0 s := by
  have hascii : (py "<hex>").all fun c => c.val < 128 ∧ ¬ (48 ≤ c.val ∧ c.val ≤ 57) := by
    decide +kernel
  refine ⟨_, substitute_unmatched fun prev v hv hsuffix => ?_⟩
  obtain ⟨c, v, rfl⟩ := List.exists_cons_of_ne_nil hv
  obtain ⟨hlow, hno⟩ := of_decide_eq_true
    (List.all_eq_true.mp hascii c (hsuffix.subset List.mem_cons_self))
  have hstop : ¬ (rt.decimal c).isSome = true := fun h => hno ((hrt.decimal c hlow).mp h)
  have hnone : (c :: v ++ s).takeWhile (fun c => (rt.decimal c).isSome) = [] :=
    List.takeWhile_cons_of_neg hstop
  exact congrArg List.length hnone

/-- What stands in for a number. -/
def numberMark (d : PyStr) : PyStr := if 16 ≤ d.length then py "<hex>" else py "<n>"

/-- A number between borders is replaced apart from what stands around it. -/
theorem normalizeMessage_number {p : PyStr} (hp : EndsOutside (inToken rt) p)
    (hs : BeginsOutside (inToken rt) s) (hd : d ≠ []) (hdigits : ∀ c ∈ d, isAsciiDigit c = true) :
    normalizeMessage rt (p ++ d ++ s) =
      normalizeMessage rt p ++ (numberMark d ++ normalizeMessage rt s) := by
  have huuid := withinRuns_uuidMatch hrt
  have hhex := withinRuns_hexMatch hrt
  have hnum := withinRuns_numMatch hrt
  have hp₁ : EndsOutside (inToken rt) (substitute uuidMatch (py "<uuid>") none 0 p) :=
    hp.substitute huuid
  have hs₁ : BeginsOutside (inToken rt) (substitute uuidMatch (py "<uuid>") none 0 s) :=
    hs.substitute huuid
  simp only [normalizeMessage]
  rw [List.append_assoc, substitute_between huuid hp hs (uuids_digits hrt hdigits hs _),
    substitute_between hhex hp₁ hs₁ (hexes_digits hrt hd hdigits hs₁
      fun c hc => isWord_of_outside (hp₁ c hc))]
  refine substitute_between hnum (hp₁.substitute hhex) (hs₁.substitute hhex) ?_
  unfold numberMark
  split_ifs
  · exact nums_hexTag hrt _ _
  · exact nums_digits hrt hd hdigits (hs₁.substitute hhex) _

/-- Two numbers in the same place group together exactly when both have sixteen digits or more, or
both have fewer. -/
theorem normalizeMessage_number_iff {p d₁ d₂ : PyStr} (hp : EndsOutside (inToken rt) p)
    (hs : BeginsOutside (inToken rt) s) (hd₁ : d₁ ≠ [])
    (hdigits₁ : ∀ c ∈ d₁, isAsciiDigit c = true) (hd₂ : d₂ ≠ [])
    (hdigits₂ : ∀ c ∈ d₂, isAsciiDigit c = true) :
    normalizeMessage rt (p ++ d₁ ++ s) = normalizeMessage rt (p ++ d₂ ++ s) ↔
      (16 ≤ d₁.length ↔ 16 ≤ d₂.length) := by
  have hne : py "<hex>" ≠ py "<n>" := by decide
  rw [normalizeMessage_number hrt hp hs hd₁ hdigits₁,
    normalizeMessage_number hrt hp hs hd₂ hdigits₂, List.append_cancel_left_eq,
    List.append_cancel_right_eq, numberMark, numberMark]
  split_ifs with h₁ h₂ h₂
  · exact iff_of_true rfl (iff_of_true h₁ h₂)
  · exact iff_of_false hne fun h => h₂ (h.mp h₁)
  · exact iff_of_false hne.symm fun h => h₁ (h.mpr h₂)
  · exact iff_of_true rfl (iff_of_false h₁ h₂)

omit hrt

theorem classes_sampleRuntime : sampleRuntime.Classes where
  alnum c _ := by
    simp only [sampleRuntime, Bool.or_eq_true, Bool.and_eq_true, decide_eq_true_eq, or_assoc]
  decimal c _ := by
    simp only [sampleRuntime]
    split_ifs with h
    · exact iff_of_true rfl h
    · exact iff_of_false Bool.false_ne_true h
  decimal_alnum c h := by
    simp only [sampleRuntime] at h ⊢
    split_ifs at h with hdigit
    · simp [hdigit]
    · cases h

theorem short_numbers_together :
    normalizeMessage sampleRuntime (py "user " ++ py "123" ++ py " not found") =
      normalizeMessage sampleRuntime (py "user " ++ py "456" ++ py " not found") :=
  (normalizeMessage_number_iff classes_sampleRuntime (by decide +kernel) (by decide +kernel)
    (by decide) (List.all_eq_true.mp (by decide +kernel)) (by decide)
    (List.all_eq_true.mp (by decide +kernel))).mpr (by decide)

/-- Fifteen digits are a number, and sixteen are taken for a hexadecimal id. -/
theorem long_number_apart :
    ¬ ∀ p d₁ d₂ s : PyStr, EndsOutside (inToken sampleRuntime) p →
      BeginsOutside (inToken sampleRuntime) s → d₁ ≠ [] → (∀ c ∈ d₁, isAsciiDigit c = true) →
      d₂ ≠ [] → (∀ c ∈ d₂, isAsciiDigit c = true) →
      normalizeMessage sampleRuntime (p ++ d₁ ++ s) =
        normalizeMessage sampleRuntime (p ++ d₂ ++ s) := by
  intro h
  have hsame := h (py "user ") (py "999999999999999") (py "1000000000000000") (py " not found")
    (by decide +kernel) (by decide +kernel) (by decide) (List.all_eq_true.mp (by decide +kernel))
    (by decide) (List.all_eq_true.mp (by decide +kernel))
  exact absurd hsame (by decide +kernel)

end Number

end Crashlens
