import Crashlens.Storable
import Mathlib.Algebra.Group.Nat.Defs

/-!
# What a serialised document tells

A JSON text is delimited by itself: between quotes everything but a quote belongs to a string, and
outside a comma or a closing bracket that no bracket of the text opened ends it. So the items of a
serialised list can be told apart. UTF-8 and the hexadecimal digits of a digest lose nothing either.
-/

namespace Crashlens

/-! ## UTF-8 and hexadecimal digits -/

section Encoding

/-- The bytes of one code point. -/
def utf8Units (c : CodePoint) : List UInt8 :=
  let n := c.val
  if n < 0x80 then [UInt8.ofNat n]
  else if n < 0x800 then [UInt8.ofNat (0xC0 + n / 64), UInt8.ofNat (0x80 + n % 64)]
  else if n < 0x10000 then
    [UInt8.ofNat (0xE0 + n / 4096), UInt8.ofNat (0x80 + n / 64 % 64), UInt8.ofNat (0x80 + n % 64)]
  else
    [UInt8.ofNat (0xF0 + n / 262144), UInt8.ofNat (0x80 + n / 4096 % 64),
      UInt8.ofNat (0x80 + n / 64 % 64), UInt8.ofNat (0x80 + n % 64)]

theorem utf8Encode_cons_ok {c : CodePoint} {cs : PyStr} {bytes : List UInt8} :
    utf8Encode (c :: cs) = .ok bytes ↔ c.isSurrogate = false ∧
      ∃ rest, utf8Encode cs = .ok rest ∧ bytes = utf8Units c ++ rest := by
  rw [utf8Encode]
  cases hc : c.isSurrogate with
  | true => simp
  | false =>
      simp only [Bool.false_eq_true, if_false, true_and, bind, Except.bind]
      cases utf8Encode cs with
      | error e => simp
      | ok rest =>
          simp only [pure, Except.pure, utf8Units, Nat.shiftRight_eq_div_pow]
          split_ifs
          all_goals simp [eq_comm]

theorem utf8Units_injective {c d : CodePoint} {r s : List UInt8}
    (h : utf8Units c ++ r = utf8Units d ++ s) : c = d ∧ r = s := by
  have hc := c.isLt
  have hd := d.isLt
  have hbyte (a b : ℕ) : UInt8.ofNat a = UInt8.ofNat b ↔ a % 256 = b % 256 := by
    rw [← UInt8.toNat_inj, UInt8.toNat_ofNat', UInt8.toNat_ofNat']
  unfold utf8Units at h
  simp only at h
  split_ifs at h
  all_goals simp only [List.cons_append, List.nil_append, List.cons.injEq, hbyte] at h
  -- Two code points of different lengths differ in the first byte.
  all_goals first
    | (exfalso; omega)
    | exact ⟨Fin.ext (by omega), by tauto⟩

theorem utf8Encode_injective {s t : PyStr} {bytes : List UInt8} (hs : utf8Encode s = .ok bytes)
    (ht : utf8Encode t = .ok bytes) : s = t := by
  have hne (c : CodePoint) : utf8Units c ≠ [] := by
    simp only [utf8Units]
    split_ifs <;> simp
  induction s generalizing t bytes with
  | nil =>
      obtain rfl : [] = bytes := Except.ok.inj hs
      cases t with
      | nil => rfl
      | cons d ds =>
          obtain ⟨-, rest, -, hbytes⟩ := utf8Encode_cons_ok.mp ht
          exact absurd (List.append_eq_nil_iff.mp hbytes.symm).1 (hne d)
  | cons c cs ih =>
      obtain ⟨-, rest, hrest, hbytes⟩ := utf8Encode_cons_ok.mp hs
      cases t with
      | nil =>
          obtain rfl : [] = bytes := Except.ok.inj ht
          exact absurd (List.append_eq_nil_iff.mp hbytes.symm).1 (hne c)
      | cons d ds =>
          obtain ⟨-, rest', hrest', hbytes'⟩ := utf8Encode_cons_ok.mp ht
          obtain ⟨rfl, rfl⟩ := utf8Units_injective (hbytes.symm.trans hbytes')
          rw [ih hrest hrest']

/-- UTF-8 encodes the strings without lone surrogates. -/
theorem utf8Encode_isOk_iff {s : PyStr} : (∃ bytes, utf8Encode s = .ok bytes) ↔ s.Encodable := by
  refine ⟨fun h => ?_, utf8Encode_ok⟩
  induction s with
  | nil => exact fun c hc => by cases hc
  | cons c cs ih =>
      obtain ⟨bytes, hbytes⟩ := h
      obtain ⟨hc, rest, hrest, -⟩ := utf8Encode_cons_ok.mp hbytes
      intro d hd
      rcases List.mem_cons.mp hd with rfl | hd
      · exact hc
      · exact ih ⟨rest, hrest⟩ d hd

theorem hexDigit_injective {m n : ℕ} (hm : m < 16) (hn : n < 16) (h : hexDigit m = hexDigit n) :
    m = n := by
  have hall : ∀ a b : Fin 16, hexDigit a.val = hexDigit b.val → a = b := by decide
  exact congrArg Fin.val (hall ⟨m, hm⟩ ⟨n, hn⟩ h)

theorem toHex_injective {width m n : ℕ} (h : toHex width m = toHex width n) :
    m % 16 ^ width = n % 16 ^ width := by
  induction width generalizing m n with
  | zero => simp [Nat.mod_one]
  | succ width ih =>
      obtain ⟨hinit, hlast⟩ := List.append_inj' (h : toHex width (m / 16) ++ _ = _) rfl
      have hdigit : m % 16 = n % 16 :=
        hexDigit_injective (Nat.mod_lt m (by omega)) (Nat.mod_lt n (by omega))
          (List.singleton_inj.mp hlast)
      rw [Nat.pow_succ', Nat.mod_mul, Nat.mod_mul, hdigit, ih hinit]

theorem hexdigest_injective {rt : Runtime} {a b : List UInt8}
    (h : rt.hexdigest a = rt.hexdigest b) : rt.sha256 a = rt.sha256 b := by
  have hmod := toHex_injective h
  have ha := (rt.sha256 a).isLt
  have hb := (rt.sha256 b).isLt
  apply BitVec.eq_of_toNat_eq
  omega

end Encoding

/-! ## Where a text ends -/

section Scanner

/-- Outside of strings, inside one, and after a backslash in one. -/
inductive Place where
  | outside
  | quoted
  | escaped
deriving DecidableEq

def isOpening (c : CodePoint) : Bool := c.val = 0x5B || c.val = 0x7B

def isClosing (c : CodePoint) : Bool := c.val = 0x5D || c.val = 0x7D

def isQuote (c : CodePoint) : Bool := c.val = 0x22

def isComma (c : CodePoint) : Bool := c.val = 0x2C

/-- Reads a text inside `depth` brackets and fails where the text is over. -/
def scan : (depth : ℕ) → Place → PyStr → Option (ℕ × Place)
  | depth, place, [] => some (depth, place)
  | depth, .outside, c :: cs =>
    if isQuote c then scan depth .quoted cs
    else if isOpening c then scan (depth + 1) .outside cs
    else if isClosing c then
      match depth with
      | 0 => none
      | depth + 1 => scan depth .outside cs
    else if isComma c && depth == 0 then none
    else scan depth .outside cs
  | depth, .quoted, c :: cs =>
    if isQuote c then scan depth .outside cs
    else if c.val = 0x5C then scan depth .escaped cs
    else scan depth .quoted cs
  | depth, .escaped, _ :: cs => scan depth .quoted cs

theorem scan_append (depth : ℕ) (place : Place) (s t : PyStr) :
    scan depth place (s ++ t) = (scan depth place s).bind fun p => scan p.1 p.2 t := by
  fun_induction scan depth place s with
  | case1 => rfl
  | _ => simp_all [scan]

/-- A text that is read to its end at any depth. -/
def Complete (s : PyStr) : Prop := ∀ depth, scan depth .outside s = some (depth, .outside)

/-- A text that is read to its end inside a bracket. -/
def Enclosed (s : PyStr) : Prop :=
  ∀ depth, scan (depth + 1) .outside s = some (depth + 1, .outside)

/-- A comma, a closing bracket or the end of the input. -/
def Delimited : PyStr → Prop
  | [] => True
  | c :: _ => (isComma c || isClosing c) = true

theorem Complete.enclosed {s : PyStr} (h : Complete s) : Enclosed s := fun depth => h (depth + 1)

theorem Complete.append {s t : PyStr} (hs : Complete s) (ht : Complete t) : Complete (s ++ t) := by
  intro depth
  rw [scan_append, hs depth]
  exact ht depth

theorem Enclosed.append {s t : PyStr} (hs : Enclosed s) (ht : Enclosed t) : Enclosed (s ++ t) := by
  intro depth
  rw [scan_append, hs depth]
  exact ht depth

theorem complete_bracket {s : PyStr} (hs : Enclosed s) : Complete (py "[" ++ s ++ py "]") := by
  intro depth
  rw [scan_append, scan_append]
  have hopen : scan depth .outside (py "[") = some (depth + 1, .outside) := rfl
  rw [hopen, Option.bind_some, hs depth, Option.bind_some]
  rfl

theorem complete_brace {s : PyStr} (hs : Enclosed s) :
    Complete (py "\x7b" ++ s ++ py "\x7d") := by
  intro depth
  rw [scan_append, scan_append]
  have hopen : scan depth .outside (py "\x7b") = some (depth + 1, .outside) := rfl
  rw [hopen, Option.bind_some, hs depth, Option.bind_some]
  rfl

/-- No character of it means anything outside of a string. -/
def Plain (s : PyStr) : Prop :=
  ∀ c ∈ s, (isQuote c || isOpening c || isClosing c || isComma c) = false

theorem Plain.complete {s : PyStr} (h : Plain s) : Complete s := by
  intro depth
  induction s with
  | nil => rfl
  | cons c cs ih =>
      have hc := h c (List.mem_cons_self ..)
      simp only [Bool.or_eq_false_iff] at hc
      obtain ⟨⟨⟨hquote, hopen⟩, hclose⟩, hcomma⟩ := hc
      simp only [scan, hquote, hopen, hclose, hcomma, Bool.false_and, Bool.false_eq_true, if_false]
      exact ih fun d hd => h d (List.mem_cons_of_mem c hd)

theorem scan_delimiter {c : CodePoint} {cs : PyStr} (hc : (isComma c || isClosing c) = true) :
    scan 0 .outside (c :: cs) = none := by
  have hval : c.val = 0x2C ∨ c.val = 0x5D ∨ c.val = 0x7D := by
    simpa [isComma, isClosing] using hc
  rcases hval with hval | hval | hval
  all_goals simp [scan, isQuote, isOpening, isClosing, isComma, hval]

/-- A text that ends where its continuation begins is determined by the two together. -/
theorem Complete.append_inj {s t x y : PyStr} (hs : Complete s) (ht : Complete t)
    (hx : Delimited x) (hy : Delimited y) (h : s ++ x = t ++ y) : s = t ∧ x = y := by
  have hshort {s t x y w : PyStr} (hs : Complete s) (ht : Complete t) (hx : Delimited x)
      (hst : t = s ++ w) (hxy : x = w ++ y) : s = t ∧ x = y := by
    cases w with
    | nil => exact ⟨by simpa using hst.symm, by simpa using hxy⟩
    | cons c cs =>
        -- The rest of the longer text starts with what delimits the shorter one.
        have hread := ht 0
        rw [hst, scan_append, hs 0, Option.bind_some] at hread
        have hc : (isComma c || isClosing c) = true := by simpa [hxy, Delimited] using hx
        rw [scan_delimiter hc] at hread
        cases hread
  rcases List.append_eq_append_iff.mp h with ⟨w, hw, hx'⟩ | ⟨w, hw, hy'⟩
  · exact hshort hs ht hx hw hx'
  · obtain ⟨hst, hxy⟩ := hshort ht hs hy hw hy'
    exact ⟨hst.symm, hxy.symm⟩

/-- What `joinComma` puts after the first of its parts. -/
def afterFirst : List PyStr → PyStr
  | [] => []
  | t :: parts => py "," ++ Runtime.joinComma (t :: parts)

theorem joinComma_cons (s : PyStr) (parts : List PyStr) :
    Runtime.joinComma (s :: parts) = s ++ afterFirst parts := by
  cases parts with
  | nil => exact (List.append_nil s).symm
  | cons t parts => exact List.append_assoc ..

theorem delimited_afterFirst (parts : List PyStr) : Delimited (afterFirst parts) := by
  cases parts with
  | nil => exact trivial
  | cons t parts =>
      have hcomma : isComma (CodePoint.ofNat 0x2C) = true := rfl
      exact Bool.or_eq_true_iff.mpr (.inl hcomma)

theorem enclosed_joinComma {parts : List PyStr} (h : ∀ s ∈ parts, Complete s) :
    Enclosed (Runtime.joinComma parts) := by
  induction parts with
  | nil => exact fun depth => rfl
  | cons s parts ih =>
      have hs : Enclosed s := (h s (List.mem_cons_self ..)).enclosed
      have hrest := ih fun t ht => h t (List.mem_cons_of_mem s ht)
      have hcomma : Enclosed (py ",") := fun depth => rfl
      rw [joinComma_cons]
      cases parts with
      | nil => exact hs.append hrest
      | cons t parts => exact hs.append (hcomma.append hrest)

/-- Complete texts between commas can be told apart. -/
theorem joinComma_injective {parts parts' : List PyStr} (h : ∀ s ∈ parts, Complete s ∧ s ≠ [])
    (h' : ∀ s ∈ parts', Complete s ∧ s ≠ [])
    (heq : Runtime.joinComma parts = Runtime.joinComma parts') : parts = parts' := by
  induction parts generalizing parts' with
  | nil =>
      cases parts' with
      | nil => rfl
      | cons t ts =>
          rw [joinComma_cons] at heq
          exact absurd (List.append_eq_nil_iff.mp heq.symm).1 (h' t (List.mem_cons_self ..)).2
  | cons s ss ih =>
      cases parts' with
      | nil =>
          rw [joinComma_cons] at heq
          exact absurd (List.append_eq_nil_iff.mp heq).1 (h s (List.mem_cons_self ..)).2
      | cons t ts =>
          rw [joinComma_cons, joinComma_cons] at heq
          obtain ⟨rfl, hafter⟩ := (h s (List.mem_cons_self ..)).1.append_inj
            (h' t (List.mem_cons_self ..)).1 (delimited_afterFirst ss) (delimited_afterFirst ts) heq
          have hjoin : Runtime.joinComma ss = Runtime.joinComma ts := by
            cases ss with
            | nil =>
                cases ts with
                | nil => rfl
                | cons t' ts => cases hafter
            | cons s' ss =>
                cases ts with
                | nil => cases hafter
                | cons t' ts => exact List.append_cancel_left hafter
          rw [ih (fun u hu => h u (List.mem_cons_of_mem s hu))
            (fun u hu => h' u (List.mem_cons_of_mem s hu)) hjoin]

end Scanner

/-! ## The texts of `json.dumps` -/

section Dumps

theorem scan_hexDigits (depth width n : ℕ) :
    scan depth .quoted (toHex width n) = some (depth, .quoted) := by
  have hdigit : ∀ d : Fin 16, isQuote (hexDigit d.val) = false ∧ (hexDigit d.val).val ≠ 0x5C := by
    decide
  induction width generalizing n with
  | zero => rfl
  | succ width ih =>
      obtain ⟨hquote, hslash⟩ := hdigit ⟨n % 16, Nat.mod_lt n (by omega)⟩
      rw [toHex, scan_append, ih, Option.bind_some]
      simp [scan, hquote, hslash]

theorem scan_escape (depth : ℕ) (c : CodePoint) :
    scan depth .quoted (Runtime.escape c) = some (depth, .quoted) := by
  unfold Runtime.escape
  split_ifs with hquote hslash
  all_goals try rfl
  · have hunit : scan depth .quoted (py "\\u") = some (depth, .quoted) := rfl
    rw [scan_append, hunit, Option.bind_some]
    exact scan_hexDigits depth 4 c.val
  · simp [scan, isQuote, hquote, hslash]

theorem complete_quote (s : PyStr) : Complete (Runtime.quote s) := by
  intro depth
  have hopen : scan depth .outside (py "\"") = some (depth, .quoted) := rfl
  have hbody : scan depth .quoted (s.flatMap Runtime.escape) = some (depth, .quoted) := by
    induction s with
    | nil => rfl
    | cons c cs ih => rw [List.flatMap_cons, scan_append, scan_escape, Option.bind_some, ih]
  rw [Runtime.quote, scan_append, scan_append, hopen, Option.bind_some, hbody, Option.bind_some]
  rfl

theorem complete_int (n : ℤ) : Complete (py (toString n)) := by
  have hdigits (m : ℕ) : Plain (py m.repr) := by
    intro c hc
    obtain ⟨d, hd, rfl⟩ := List.mem_map.mp hc
    rw [Nat.toList_repr] at hd
    have hdigit := Nat.isDigit_of_mem_toDigits (by decide) (by decide) hd
    have hrange : 48 ≤ d.toNat ∧ d.toNat ≤ 57 := by
      simpa [Char.isDigit, UInt32.le_iff_toNat_le] using hdigit
    have hval : (CodePoint.ofNat d.toNat).val = d.toNat := Nat.mod_eq_of_lt (by omega)
    simp only [isQuote, isOpening, isClosing, isComma, hval, Bool.or_eq_false_iff,
      decide_eq_false_iff_not]
    omega
  rw [Int.toString_eq_repr, Int.repr_eq_if]
  split_ifs
  · exact (hdigits _).complete
  · have hsign : Complete (py "-") := fun _ => rfl
    have happend : py ("-" ++ (-n).toNat.repr) = py "-" ++ py (-n).toNat.repr := by simp [py]
    rw [happend]
    exact hsign.append (hdigits _).complete

/-- `repr` of a float has digits, signs, a point and an exponent. -/
def Runtime.FloatsPlain (rt : Runtime) : Prop := ∀ b q, Plain (rt.floatRepr b q)

variable {rt : Runtime}

mutual

theorem dumps_complete (hrt : rt.FloatsPlain) : (v : Json) → Complete (rt.dumps v)
  | .null => fun _ => rfl
  | .bool b => by cases b <;> exact fun _ => rfl
  | .int n => complete_int n
  | .float (.finite negative q) => (hrt negative q).complete
  | .float (.infinite negative) => by cases negative <;> exact fun _ => rfl
  | .float .nan => fun _ => rfl
  | .str s => complete_quote s
  | .arr xs => complete_bracket (enclosed_joinComma (dumpsItems_complete hrt xs))
  | .obj kvs => by
      refine complete_brace (enclosed_joinComma fun s hs => ?_)
      obtain ⟨kv, hkv, rfl⟩ := List.mem_map.mp hs
      have hv := dumpsFields_complete hrt kvs kv ((List.perm_insertionSort _ _).mem_iff.mp hkv)
      have hcolon : Complete (py ":") := fun _ => rfl
      exact ((complete_quote kv.1).append hcolon).append hv

theorem dumpsItems_complete (hrt : rt.FloatsPlain) : (xs : List Json) →
    ∀ s ∈ rt.dumpsItems xs, Complete s
  | [] => fun _ hs => by cases hs
  | x :: xs => fun s hs => by
      rcases List.mem_cons.mp hs with rfl | hs
      · exact dumps_complete hrt x
      · exact dumpsItems_complete hrt xs s hs

theorem dumpsFields_complete (hrt : rt.FloatsPlain) : (kvs : List (PyStr × Json)) →
    ∀ kv ∈ rt.dumpsFields kvs, Complete kv.2
  | [] => fun _ hkv => by cases hkv
  | (k, v) :: kvs => fun kv hkv => by
      rcases List.mem_cons.mp hkv with rfl | hkv
      · exact dumps_complete hrt v
      · exact dumpsFields_complete hrt kvs kv hkv

end

end Dumps

end Crashlens
