import Crashlens.ReleaseNames

/-!
# Reading a release back from its directory

The listing decodes the names of the directories it finds. Decoding skips what is no digit and drops
the bits that no byte has room for, so that it takes more names than encoding gives: a name is the
one of the release it is shown as when it has digits only and its spare bits are zero.
-/

namespace Crashlens

/-! ## UTF-8 -/

section Utf8

/-- A byte that continues a code point. -/
def utf8Tail (b : UInt8) : Bool := 0x80 ≤ b.toNat && b.toNat < 0xC0

/-- `data.decode("utf-8")` -/
def utf8Decode : List UInt8 → Except PyError PyStr
  | [] => .ok []
  | a :: rest =>
    let n := a.toNat
    if n < 0x80 then (utf8Decode rest).map (CodePoint.ofNat n :: ·)
    else match rest with
      | [] => .error .valueError
      | b :: rest =>
        if !utf8Tail b then .error .valueError
        else if 0xC2 ≤ n ∧ n < 0xE0 then
          (utf8Decode rest).map (CodePoint.ofNat ((n - 0xC0) * 64 + b.toNat % 64) :: ·)
        else match rest with
          | [] => .error .valueError
          | c :: rest =>
            if !utf8Tail c then .error .valueError
            else if 0xE0 ≤ n ∧ n < 0xF0 then
              let p := (n - 0xE0) * 4096 + b.toNat % 64 * 64 + c.toNat % 64
              if p < 0x800 ∨ 0xD800 ≤ p ∧ p ≤ 0xDFFF then .error .valueError
              else (utf8Decode rest).map (CodePoint.ofNat p :: ·)
            else match rest with
              | [] => .error .valueError
              | d :: rest =>
                let p := (n - 0xF0) * 262144 + b.toNat % 64 * 4096 + c.toNat % 64 * 64 +
                  d.toNat % 64
                if !utf8Tail d ∨ n < 0xF0 ∨ p < 0x10000 ∨ 0x110000 ≤ p then .error .valueError
                else (utf8Decode rest).map (CodePoint.ofNat p :: ·)

theorem toNat_ofNat_of_lt {n : ℕ} (h : n < 256) : (UInt8.ofNat n).toNat = n := by
  rw [UInt8.toNat_ofNat', Nat.mod_eq_of_lt h]

theorem utf8Tail_ofNat (n : ℕ) :
    utf8Tail (UInt8.ofNat (0x80 + n % 64)) = true ∧
      (UInt8.ofNat (0x80 + n % 64)).toNat % 64 = n % 64 := by
  have hlt : n % 64 < 64 := Nat.mod_lt n (by decide)
  rw [utf8Tail, toNat_ofNat_of_lt (by omega)]
  refine ⟨?_, by omega⟩
  simp only [Bool.and_eq_true, decide_eq_true_eq]
  omega

theorem codePoint_ofNat_eq {n : ℕ} {c : CodePoint} (h : n = c.val) : CodePoint.ofNat n = c := by
  subst h
  exact Fin.ofNat_val_eq_self c

theorem utf8Decode_units {c : CodePoint} (h : c.isSurrogate = false) (rest : List UInt8) :
    utf8Decode (utf8Units c ++ rest) = (utf8Decode rest).map (c :: ·) := by
  have hc := c.isLt
  have hsurrogate : ¬ (0xD800 ≤ c.val ∧ c.val ≤ 0xDFFF) := by
    simpa [CodePoint.isSurrogate] using h
  unfold utf8Units
  dsimp only
  split_ifs with h1 h2 h3
  · have hlead : (UInt8.ofNat c.val).toNat = c.val := toNat_ofNat_of_lt (by omega)
    rw [List.singleton_append, utf8Decode.eq_def]
    simp only [hlead, if_pos h1, codePoint_ofNat_eq rfl]
  · have hlead : (UInt8.ofNat (0xC0 + c.val / 64)).toNat = 0xC0 + c.val / 64 :=
      toNat_ofNat_of_lt (by omega)
    obtain ⟨htail, hlow⟩ := utf8Tail_ofNat c.val
    have hpoint : CodePoint.ofNat ((0xC0 + c.val / 64 - 0xC0) * 64 + c.val % 64) = c :=
      codePoint_ofNat_eq (by omega)
    rw [List.cons_append, List.singleton_append, utf8Decode.eq_def]
    simp only [hlead, htail, hlow, hpoint]
    rw [if_neg (by omega), if_neg (by simp), if_pos (by omega)]
  · have hlead : (UInt8.ofNat (0xE0 + c.val / 4096)).toNat = 0xE0 + c.val / 4096 :=
      toNat_ofNat_of_lt (by omega)
    obtain ⟨htail, hlow⟩ := utf8Tail_ofNat c.val
    obtain ⟨htail', hmid⟩ := utf8Tail_ofNat (c.val / 64)
    have hpoint : (0xE0 + c.val / 4096 - 0xE0) * 4096 + c.val / 64 % 64 * 64 + c.val % 64 =
        c.val := by omega
    simp only [List.cons_append, List.nil_append]
    rw [utf8Decode.eq_def]
    simp only [hlead, htail, hlow, htail', hmid, hpoint, codePoint_ofNat_eq rfl]
    rw [if_neg (by omega), if_neg (by simp), if_neg (by omega), if_neg (by simp),
      if_pos (by omega), if_neg (by omega)]
  · have hlead : (UInt8.ofNat (0xF0 + c.val / 262144)).toNat = 0xF0 + c.val / 262144 :=
      toNat_ofNat_of_lt (by omega)
    obtain ⟨htail, hlow⟩ := utf8Tail_ofNat c.val
    obtain ⟨htail', hmid⟩ := utf8Tail_ofNat (c.val / 64)
    obtain ⟨htail'', hhigh⟩ := utf8Tail_ofNat (c.val / 4096)
    have hpoint : (0xF0 + c.val / 262144 - 0xF0) * 262144 + c.val / 4096 % 64 * 4096 +
        c.val / 64 % 64 * 64 + c.val % 64 = c.val := by omega
    simp only [List.cons_append, List.nil_append]
    rw [utf8Decode.eq_def]
    simp only [hlead, htail, hlow, htail', hmid, htail'', hhigh, hpoint, codePoint_ofNat_eq rfl]
    rw [if_neg (by omega), if_neg (by simp), if_neg (by omega), if_neg (by simp),
      if_neg (by omega), if_neg]
    simp only [Bool.not_true, Bool.false_eq_true, false_or]
    omega

theorem utf8Decode_utf8Encode {s : PyStr} {bytes : List UInt8} (h : utf8Encode s = .ok bytes) :
    utf8Decode bytes = .ok s := by
  induction s generalizing bytes with
  | nil =>
      cases h
      rfl
  | cons c cs ih =>
      obtain ⟨hc, rest, hrest, rfl⟩ := utf8Encode_cons_ok.mp h
      rw [utf8Decode_units hc, ih hrest]
      rfl

theorem eq_ofNat_tail {b : UInt8} (h : utf8Tail b = true) {n : ℕ} (hn : n % 64 = b.toNat % 64) :
    b = UInt8.ofNat (0x80 + n % 64) := by
  simp only [utf8Tail, Bool.and_eq_true, decide_eq_true_eq] at h
  rw [← UInt8.toNat_inj, toNat_ofNat_of_lt (by omega)]
  omega

theorem val_ofNat {p : ℕ} (h : p < 0x110000) : (CodePoint.ofNat p).val = p := Nat.mod_eq_of_lt h

/-- One code point in front of what is encoded already. -/
theorem utf8Encode_map_cons (units : List UInt8) {p : ℕ} {rest : List UInt8} {s : PyStr}
    (hp : p < 0x110000) (hsurrogate : ¬ (0xD800 ≤ p ∧ p ≤ 0xDFFF))
    (hunits : units = utf8Units (CodePoint.ofNat p))
    (ih : ∀ {s : PyStr}, utf8Decode rest = .ok s → utf8Encode s = .ok rest)
    (h : (utf8Decode rest).map (CodePoint.ofNat p :: ·) = .ok s) :
    utf8Encode s = .ok (units ++ rest) := by
  obtain ⟨cs, hcs, rfl⟩ := map_ok h
  have hclean : (CodePoint.ofNat p).isSurrogate = false := by
    simpa [CodePoint.isSurrogate, val_ofNat hp] using hsurrogate
  exact utf8Encode_cons_ok.mpr ⟨hclean, rest, ih hcs, by rw [hunits]⟩

theorem utf8Encode_utf8Decode {bytes : List UInt8} {s : PyStr} (h : utf8Decode bytes = .ok s) :
    utf8Encode s = .ok bytes := by
  have hlead {a : UInt8} {n : ℕ} (hn : a.toNat = n) : a = UInt8.ofNat n := by
    rw [← hn, UInt8.ofNat_toNat]
  fun_induction utf8Decode bytes generalizing s with
  | case1 =>
      cases h
      rfl
  | case2 a rest n hone =>
      rename_i ih
      refine utf8Encode_map_cons [a] (by omega) (by omega) ?_ ih h
      rw [utf8Units, val_ofNat (by omega), if_pos hone, ← hlead rfl]
  | case5 a n hone b rest htail htwo =>
      rename_i ih
      refine utf8Encode_map_cons [a, b] (by omega) (by omega) ?_ ih h
      have hb : b = UInt8.ofNat (0x80 + ((n - 0xC0) * 64 + b.toNat % 64) % 64) :=
        eq_ofNat_tail (by simpa using htail) (by omega)
      have ha : a = UInt8.ofNat (0xC0 + ((n - 0xC0) * 64 + b.toNat % 64) / 64) := hlead (by omega)
      rw [utf8Units, val_ofNat (by omega), if_neg (by omega), if_pos (by omega), ← ha, ← hb]
  | case9 a n hone b htail htwo c rest htail' hthree p hp =>
      rename_i ih
      refine utf8Encode_map_cons [a, b, c] (by omega) (by omega) ?_ ih h
      have hc : c = UInt8.ofNat (0x80 + p % 64) := eq_ofNat_tail (by simpa using htail') (by omega)
      have hb : b = UInt8.ofNat (0x80 + p / 64 % 64) :=
        eq_ofNat_tail (by simpa using htail) (by omega)
      have ha : a = UInt8.ofNat (0xE0 + p / 4096) := hlead (by omega)
      rw [utf8Units, val_ofNat (by omega), if_neg (by omega), if_neg (by omega), if_pos (by omega),
        ← ha, ← hb, ← hc]
  | case12 a n hone b htail htwo c htail' hthree d rest p hp =>
      rename_i ih
      simp only [not_or, not_lt, not_le] at hp
      obtain ⟨htail'', hn, hmin, hmax⟩ := hp
      refine utf8Encode_map_cons [a, b, c, d] (by omega) (by omega) ?_ ih h
      have hd : d = UInt8.ofNat (0x80 + p % 64) := eq_ofNat_tail (by simpa using htail'') (by omega)
      have hc : c = UInt8.ofNat (0x80 + p / 64 % 64) :=
        eq_ofNat_tail (by simpa using htail') (by omega)
      have hb : b = UInt8.ofNat (0x80 + p / 4096 % 64) :=
        eq_ofNat_tail (by simpa using htail) (by omega)
      have ha : a = UInt8.ofNat (0xF0 + p / 262144) := hlead (by omega)
      rw [utf8Units, val_ofNat (by omega), if_neg (by omega), if_neg (by omega), if_neg (by omega),
        ← ha, ← hb, ← hc, ← hd]
  | _ => cases h

end Utf8

/-! ## Base64 -/

section Base64

/-- The two digits that differ in the alphabet for file names. -/
def urlsafeTranslate (c : CodePoint) : CodePoint :=
  if c.val = 0x2D then CodePoint.ofNat 0x2B else if c.val = 0x5F then CodePoint.ofNat 0x2F else c

/-- The loop of `binascii.a2b_base64`; `quadPos` counts the digits since the last whole byte, and
`leftchar` has the bits of them that are not written yet. -/
def a2bBase64 : PyStr → (quadPos leftchar pads : ℕ) → Except PyError (List UInt8)
  | [], quadPos, _, _ => if quadPos = 0 then .ok [] else .error .valueError
  | c :: cs, quadPos, leftchar, pads =>
    if c.val = 0x3D then
      if 2 ≤ quadPos then
        if 4 ≤ quadPos + (pads + 1) then .ok [] else a2bBase64 cs quadPos leftchar (pads + 1)
      else a2bBase64 cs quadPos leftchar pads
    else
      match b64.idxOf? c with
      | none => a2bBase64 cs quadPos leftchar pads
      | some digit =>
        match quadPos with
        | 0 => a2bBase64 cs 1 digit 0
        | 1 => (a2bBase64 cs 2 (digit &&& 0x0F) 0).map
            (UInt8.ofNat (leftchar <<< 2 ||| digit >>> 4) :: ·)
        | 2 => (a2bBase64 cs 3 (digit &&& 0x03) 0).map
            (UInt8.ofNat (leftchar <<< 4 ||| digit >>> 2) :: ·)
        | _ => (a2bBase64 cs 0 0 0).map (UInt8.ofNat (leftchar <<< 6 ||| digit) :: ·)

/-- `base64.urlsafe_b64decode` -/
def urlsafeB64decode (s : PyStr) : Except PyError (List UInt8) :=
  a2bBase64 (s.map urlsafeTranslate) 0 0 0

/-- The signs of padding an encoding of this length lacks. -/
def padCount (length : ℕ) : ℕ := (4 - length % 4) % 4

/-- Nothing but ASCII can be encoded for decoding. -/
def releaseFromDirname (dirname : PyStr) : Option PyStr :=
  let padded := dirname ++ List.replicate (padCount dirname.length) (CodePoint.ofNat 0x3D)
  if padded.all (fun c => c.val < 0x80) then
    (urlsafeB64decode padded >>= utf8Decode).toOption
  else none

/-- A name of digits whose last one has zeros where no byte has room for its bits. -/
structure CanonicalDirname (d : PyStr) : Prop where
  digits : ∀ c ∈ d, isDirnameChar c = true
  spare : ∀ c ∈ d.getLast?, base64urlAlphabet.idxOf c % 2 ^ (2 * padCount d.length) = 0

/-! What the loop makes of the digits of a name. -/

def firstByte (v w : Fin 64) : UInt8 := UInt8.ofNat (v.val <<< 2 ||| w.val >>> 4)

def secondByte (w x : Fin 64) : UInt8 := UInt8.ofNat ((w.val &&& 0x0F) <<< 4 ||| x.val >>> 2)

def thirdByte (x y : Fin 64) : UInt8 := UInt8.ofNat ((x.val &&& 0x03) <<< 6 ||| y.val)

/-- Four digits are three bytes, and one digit alone is none. -/
def digitBytes : List (Fin 64) → Except PyError (List UInt8)
  | [] => .ok []
  | [_] => .error .valueError
  | [v, w] => .ok [firstByte v w]
  | [v, w, x] => .ok [firstByte v w, secondByte w x]
  | v :: w :: x :: y :: rest =>
    (digitBytes rest).map fun bytes => firstByte v w :: secondByte w x :: thirdByte x y :: bytes

def dirnameOf (digits : List (Fin 64)) : PyStr := digits.map fun v => base64urlDigit v.val

theorem dirnameOf_cons (v : Fin 64) (digits : List (Fin 64)) :
    dirnameOf (v :: digits) = base64urlDigit v.val :: dirnameOf digits := rfl

/-- A digit is read as its place in the alphabet. -/
theorem base64urlDigit_read (v : Fin 64) :
    (urlsafeTranslate (base64urlDigit v.val)).val ≠ 0x3D ∧
      b64.idxOf? (urlsafeTranslate (base64urlDigit v.val)) = some v.val ∧
      base64urlAlphabet.idxOf (base64urlDigit v.val) = v.val := by
  have hall : ∀ v : Fin 64, (urlsafeTranslate (base64urlDigit v.val)).val ≠ 0x3D ∧
      b64.idxOf? (urlsafeTranslate (base64urlDigit v.val)) = some v.val ∧
      base64urlAlphabet.idxOf (base64urlDigit v.val) = v.val := by decide +kernel
  exact hall v

theorem exists_digit {c : CodePoint} (h : isDirnameChar c = true) :
    ∃ v : Fin 64, c = base64urlDigit v.val := by
  have hall : ∀ i : Fin 128, isDirnameChar (CodePoint.ofNat i.val) = true →
      ∃ v : Fin 64, CodePoint.ofNat i.val = base64urlDigit v.val := by decide +kernel
  have hlt : c.val < 128 := by
    simp only [isDirnameChar, Bool.or_eq_true, Bool.and_eq_true, decide_eq_true_eq,
      beq_iff_eq] at h
    omega
  have hc : CodePoint.ofNat c.val = c := codePoint_ofNat_eq rfl
  rw [← hc] at h ⊢
  exact hall ⟨c.val, hlt⟩ h

theorem exists_dirnameOf {d : PyStr} (h : ∀ c ∈ d, isDirnameChar c = true) :
    ∃ digits, d = dirnameOf digits := by
  induction d with
  | nil => exact ⟨[], rfl⟩
  | cons c cs ih =>
      rw [List.forall_mem_cons] at h
      obtain ⟨v, rfl⟩ := exists_digit h.1
      obtain ⟨digits, rfl⟩ := ih h.2
      exact ⟨v :: digits, rfl⟩

theorem a2bBase64_digit (v : Fin 64) (cs : PyStr) (quadPos leftchar pads : ℕ) :
    a2bBase64 (urlsafeTranslate (base64urlDigit v.val) :: cs) quadPos leftchar pads =
      match quadPos with
      | 0 => a2bBase64 cs 1 v.val 0
      | 1 => (a2bBase64 cs 2 (v.val &&& 0x0F) 0).map
          (UInt8.ofNat (leftchar <<< 2 ||| v.val >>> 4) :: ·)
      | 2 => (a2bBase64 cs 3 (v.val &&& 0x03) 0).map
          (UInt8.ofNat (leftchar <<< 4 ||| v.val >>> 2) :: ·)
      | _ => (a2bBase64 cs 0 0 0).map (UInt8.ofNat (leftchar <<< 6 ||| v.val) :: ·) := by
  obtain ⟨hpad, hindex, -⟩ := base64urlDigit_read v
  rw [a2bBase64, if_neg hpad, hindex]

theorem urlsafeB64decode_dirnameOf (digits : List (Fin 64)) :
    urlsafeB64decode (dirnameOf digits ++
      List.replicate (padCount digits.length) (CodePoint.ofNat 0x3D)) = digitBytes digits := by
  have hpad : urlsafeTranslate (CodePoint.ofNat 0x3D) = CodePoint.ofNat 0x3D := by decide
  unfold urlsafeB64decode
  rw [List.map_append, List.map_replicate, hpad]
  induction digits using digitBytes.induct with
  | case1 => rfl
  | case2 v =>
      rw [dirnameOf_cons, List.map_cons, List.cons_append, a2bBase64_digit]
      rfl
  | case3 v w =>
      simp only [dirnameOf_cons, List.map_cons, List.cons_append, a2bBase64_digit]
      rfl
  | case4 v w x =>
      simp only [dirnameOf_cons, List.map_cons, List.cons_append, a2bBase64_digit]
      rfl
  | case5 v w x y rest ih =>
      have hcount : padCount (v :: w :: x :: y :: rest).length = padCount rest.length := by
        simp only [padCount, List.length_cons]
        omega
      rw [hcount]
      simp only [dirnameOf_cons, List.map_cons, List.cons_append, a2bBase64_digit]
      rw [ih, digitBytes]
      cases digitBytes rest with
      | error e => rfl
      | ok bytes => rfl

theorem shiftLeft_or {m n k : ℕ} (h : n < 2 ^ k) : m <<< k ||| n = m * 2 ^ k + n := by
  rw [← Nat.shiftLeft_add_eq_or_of_lt h, Nat.shiftLeft_eq]

theorem firstByte_toNat (v w : Fin 64) : (firstByte v w).toNat = v.val * 4 + w.val / 16 := by
  have hw : w.val >>> 4 < 2 ^ 2 := by
    rw [Nat.shiftRight_eq_div_pow]
    omega
  rw [firstByte, shiftLeft_or hw, Nat.shiftRight_eq_div_pow, toNat_ofNat_of_lt (by omega)]
  simp only [Nat.reducePow]

theorem secondByte_toNat (w x : Fin 64) :
    (secondByte w x).toNat = w.val % 16 * 16 + x.val / 4 := by
  have hmask : w.val &&& 0x0F = w.val % 16 := Nat.and_two_pow_sub_one_eq_mod w.val 4
  have hx : x.val >>> 2 < 2 ^ 4 := by
    rw [Nat.shiftRight_eq_div_pow]
    omega
  rw [secondByte, hmask, shiftLeft_or hx, Nat.shiftRight_eq_div_pow, toNat_ofNat_of_lt (by omega)]
  simp only [Nat.reducePow]

theorem thirdByte_toNat (x y : Fin 64) : (thirdByte x y).toNat = x.val % 4 * 64 + y.val := by
  have hmask : x.val &&& 0x03 = x.val % 4 := Nat.and_two_pow_sub_one_eq_mod x.val 2
  rw [thirdByte, hmask, shiftLeft_or (by omega), toNat_ofNat_of_lt (by omega)]
  simp only [Nat.reducePow]

/-- The digit of a number is that of its last six bits. -/
theorem base64urlDigit_eq_iff {n : ℕ} {v : Fin 64} :
    base64urlDigit n = base64urlDigit v.val ↔ n % 64 = v.val := by
  constructor
  · intro h
    have hmod := base64urlDigit_inj h
    omega
  · intro h
    rw [base64urlDigit, base64urlDigit, h, Nat.mod_eq_of_lt v.isLt]

/-- The bits of the last digit that no byte has room for are zero. -/
def SpareZero (digits : List (Fin 64)) : Prop :=
  ∀ v ∈ digits.getLast?, v.val % 2 ^ (2 * padCount digits.length) = 0

theorem spareZero_cons (v w x y : Fin 64) (rest : List (Fin 64)) :
    SpareZero (v :: w :: x :: y :: rest) ↔ SpareZero rest := by
  have hcount : padCount (v :: w :: x :: y :: rest).length = padCount rest.length := by
    simp only [padCount, List.length_cons]
    omega
  unfold SpareZero
  rw [hcount]
  cases rest with
  | nil => simp [padCount, Nat.mod_one]
  | cons z rest => simp [List.getLast?_cons_cons]

theorem dirnameOf_digits_iff {digits : List (Fin 64)} {bytes : List UInt8}
    (h : digitBytes digits = .ok bytes) :
    base64urlDigits bytes = dirnameOf digits ↔ SpareZero digits := by
  induction digits using digitBytes.induct generalizing bytes with
  | case1 =>
      cases h
      simp [base64urlDigits, dirnameOf, SpareZero]
  | case2 v => cases h
  | case3 v w =>
      cases h
      have hv := v.isLt
      have hw := w.isLt
      simp only [base64urlDigits, dirnameOf, List.map_cons, List.map_nil, List.cons.injEq, and_true,
        base64urlDigit_eq_iff, firstByte_toNat, Nat.shiftRight_eq_div_pow, Nat.shiftLeft_eq]
      simp [SpareZero, padCount]
      omega
  | case4 v w x =>
      cases h
      have hv := v.isLt
      have hw := w.isLt
      have hx := x.isLt
      simp only [base64urlDigits, dirnameOf, List.map_cons, List.map_nil, List.cons.injEq, and_true,
        base64urlDigit_eq_iff, firstByte_toNat, secondByte_toNat, Nat.shiftRight_eq_div_pow,
        Nat.shiftLeft_eq]
      simp [SpareZero, padCount]
      omega
  | case5 v w x y rest ih =>
      obtain ⟨bytes', hbytes', rfl⟩ := map_ok h
      have hv := v.isLt
      have hw := w.isLt
      have hx := x.isLt
      have hy := y.isLt
      rw [spareZero_cons, ← ih hbytes']
      simp only [base64urlDigits, dirnameOf, List.map_cons, List.cons.injEq,
        base64urlDigit_eq_iff, firstByte_toNat, secondByte_toNat, thirdByte_toNat,
        Nat.shiftRight_eq_div_pow, Nat.shiftLeft_eq]
      refine ⟨fun h => h.2.2.2.2, fun h => ⟨?_, ?_, ?_, ?_, h⟩⟩
      · omega
      · omega
      · omega
      · omega

theorem base64urlDigit_ofNat (n : ℕ) : base64urlDigit (Fin.ofNat 64 n).val = base64urlDigit n :=
  (base64urlDigit_eq_iff.mpr rfl).symm

/-- Bytes are what their own digits are read as. -/
theorem exists_digitBytes (bytes : List UInt8) :
    ∃ digits, base64urlDigits bytes = dirnameOf digits ∧ digitBytes digits = .ok bytes := by
  induction bytes using base64urlDigits.induct with
  | case1 => exact ⟨[], rfl, rfl⟩
  | case2 a =>
      refine ⟨[Fin.ofNat 64 (a.toNat >>> 2), Fin.ofNat 64 (a.toNat <<< 4)], ?_, ?_⟩
      · simp only [base64urlDigits, dirnameOf_cons, base64urlDigit_ofNat]
        rfl
      · have ha := a.toNat_lt
        rw [digitBytes, Except.ok.injEq, List.cons.injEq, ← UInt8.toNat_inj, firstByte_toNat]
        simp only [Fin.val_ofNat, Nat.shiftRight_eq_div_pow, Nat.shiftLeft_eq, and_true]
        omega
  | case3 a b =>
      refine ⟨[Fin.ofNat 64 (a.toNat >>> 2), Fin.ofNat 64 ((a.toNat <<< 4) + (b.toNat >>> 4)),
        Fin.ofNat 64 (b.toNat <<< 2)], ?_, ?_⟩
      · simp only [base64urlDigits, dirnameOf_cons, base64urlDigit_ofNat]
        rfl
      · have ha := a.toNat_lt
        have hb := b.toNat_lt
        simp only [digitBytes, Except.ok.injEq, List.cons.injEq, ← UInt8.toNat_inj, firstByte_toNat,
          secondByte_toNat, Fin.val_ofNat, Nat.shiftRight_eq_div_pow, Nat.shiftLeft_eq, and_true]
        omega
  | case4 a b c rest ih =>
      obtain ⟨digits, hdigits, hbytes⟩ := ih
      refine ⟨Fin.ofNat 64 (a.toNat >>> 2) :: Fin.ofNat 64 ((a.toNat <<< 4) + (b.toNat >>> 4)) ::
        Fin.ofNat 64 ((b.toNat <<< 2) + (c.toNat >>> 6)) :: Fin.ofNat 64 c.toNat :: digits, ?_, ?_⟩
      · simp only [base64urlDigits, dirnameOf_cons, base64urlDigit_ofNat, hdigits]
      · have ha := a.toNat_lt
        have hb := b.toNat_lt
        have hc := c.toNat_lt
        rw [digitBytes, hbytes]
        simp only [Except.map, Except.ok.injEq, List.cons.injEq, ← UInt8.toNat_inj,
          firstByte_toNat, secondByte_toNat, thirdByte_toNat, Fin.val_ofNat,
          Nat.shiftRight_eq_div_pow, Nat.shiftLeft_eq, and_true]
        omega

/-! ## The codec -/

theorem releaseFromDirname_dirnameOf (digits : List (Fin 64)) :
    releaseFromDirname (dirnameOf digits) = (digitBytes digits >>= utf8Decode).toOption := by
  have hlength : (dirnameOf digits).length = digits.length := List.length_map ..
  have hascii {c : CodePoint} (h : isDirnameChar c = true) : c.val < 0x80 := by
    simp only [isDirnameChar, Bool.or_eq_true, Bool.and_eq_true, decide_eq_true_eq,
      beq_iff_eq] at h
    omega
  rw [releaseFromDirname, hlength, urlsafeB64decode_dirnameOf]
  refine if_pos (List.all_eq_true.mpr fun c hc => decide_eq_true ?_)
  obtain hc | hc := List.mem_append.mp hc
  · obtain ⟨v, -, rfl⟩ := List.mem_map.mp hc
    exact hascii (isDirnameChar_base64urlDigit v.val)
  · rw [List.eq_of_mem_replicate hc]
    decide

theorem canonicalDirname_dirnameOf_iff (digits : List (Fin 64)) :
    CanonicalDirname (dirnameOf digits) ↔ SpareZero digits := by
  have hlength : (dirnameOf digits).length = digits.length := List.length_map ..
  have hspare : (∀ c ∈ (dirnameOf digits).getLast?,
      base64urlAlphabet.idxOf c % 2 ^ (2 * padCount (dirnameOf digits).length) = 0) ↔
      SpareZero digits := by
    rw [hlength, dirnameOf, List.getLast?_map, SpareZero]
    cases digits.getLast? with
    | none => simp
    | some v => simp [(base64urlDigit_read v).2.2]
  refine ⟨fun h => hspare.mp h.spare, fun h => ⟨fun c hc => ?_, hspare.mpr h⟩⟩
  obtain ⟨v, -, rfl⟩ := List.mem_map.mp hc
  exact isDirnameChar_base64urlDigit v.val

theorem releaseFromDirname_releaseDirname {release : PyStr} (h : release.Encodable) :
    ∃ d, releaseDirname release = .ok d ∧ releaseFromDirname d = some release := by
  obtain ⟨bytes, hbytes⟩ := utf8Encode_ok h
  obtain ⟨digits, hdigits, hread⟩ := exists_digitBytes bytes
  refine ⟨dirnameOf digits, ?_, ?_⟩
  · rw [releaseDirname_eq, hbytes, ← hdigits]
    rfl
  · rw [releaseFromDirname_dirnameOf, hread]
    exact congrArg Except.toOption (utf8Decode_utf8Encode hbytes)

theorem releaseDirname_of_read_iff {d release : PyStr} (h : releaseFromDirname d = some release) :
    releaseDirname release = .ok d ↔ CanonicalDirname d := by
  by_cases hdigits : ∀ c ∈ d, isDirnameChar c = true
  · obtain ⟨digits, rfl⟩ := exists_dirnameOf hdigits
    rw [releaseFromDirname_dirnameOf] at h
    obtain ⟨bytes, hbytes, hrelease⟩ := bind_ok (toOption_eq_some h)
    rw [canonicalDirname_dirnameOf_iff, ← dirnameOf_digits_iff hbytes, releaseDirname_eq,
      utf8Encode_utf8Decode hrelease, Except.map, Except.ok.injEq]
  · exact iff_of_false (fun hd => hdigits (releaseDirname_spec hd).1) fun hd => hdigits hd.digits

/-- A release is read back from its directory, and a directory that is read as a release is the one
of that release exactly when its name is canonical. -/
theorem dirname_codec (release d : PyStr) :
    (release.Encodable →
      ∃ name, releaseDirname release = .ok name ∧ releaseFromDirname name = some release) ∧
    (releaseFromDirname d = some release →
      (releaseDirname release = .ok d ↔ CanonicalDirname d)) :=
  ⟨releaseFromDirname_releaseDirname, releaseDirname_of_read_iff⟩

/-- A stray character, and a spare bit that is set. -/
theorem stray_dirnames :
    (releaseFromDirname (py "QUJ!D") = some (py "ABC") ∧
      releaseDirname (py "ABC") ≠ .ok (py "QUJ!D")) ∧
    releaseFromDirname (py "QR") = some (py "A") ∧ releaseDirname (py "A") ≠ .ok (py "QR") := by
  decide +kernel

end Base64

end Crashlens
