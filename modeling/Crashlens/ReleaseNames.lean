import Crashlens.JsonText
import Crashlens.Sourcemaps
import Mathlib.Data.List.TakeWhile

/-!
# Release directories

The directory of a release is the base64url encoding of its UTF-8 bytes without the padding. What
the padding says is also in the length of what is left, so that two releases never share one.
-/

namespace Crashlens

/-- `[A-Za-z0-9_-]` -/
def isDirnameChar (c : CodePoint) : Bool :=
  (0x41 ≤ c.val && c.val ≤ 0x5A) || (0x61 ≤ c.val && c.val ≤ 0x7A) ||
    (0x30 ≤ c.val && c.val ≤ 0x39) || c.val == 0x5F || c.val == 0x2D

/-- The digits of an encoding, without the padding. -/
def base64urlDigits : List UInt8 → PyStr
  | [] => []
  | [a] => [base64urlDigit (a.toNat >>> 2), base64urlDigit (a.toNat <<< 4)]
  | [a, b] =>
    [base64urlDigit (a.toNat >>> 2), base64urlDigit ((a.toNat <<< 4) + (b.toNat >>> 4)),
      base64urlDigit (b.toNat <<< 2)]
  | a :: b :: c :: rest =>
    base64urlDigit (a.toNat >>> 2) :: base64urlDigit ((a.toNat <<< 4) + (b.toNat >>> 4)) ::
      base64urlDigit ((b.toNat <<< 2) + (c.toNat >>> 6)) :: base64urlDigit c.toNat ::
      base64urlDigits rest

theorem isDirnameChar_base64urlDigit (n : ℕ) : isDirnameChar (base64urlDigit n) = true := by
  have hall : ∀ i : Fin 64,
      isDirnameChar (base64urlAlphabet.getD i.val (CodePoint.ofNat 0)) = true := by
    decide +kernel
  exact hall ⟨n % 64, Nat.mod_lt n (by decide)⟩

theorem base64urlDigit_inj {m n : ℕ} (h : base64urlDigit m = base64urlDigit n) :
    m % 64 = n % 64 := by
  have hall : ∀ i j : Fin 64, base64urlAlphabet.getD i.val (CodePoint.ofNat 0) =
      base64urlAlphabet.getD j.val (CodePoint.ofNat 0) → i = j := by
    decide +kernel
  have hm : m % 64 < 64 := Nat.mod_lt m (by decide)
  have hn : n % 64 < 64 := Nat.mod_lt n (by decide)
  exact congrArg Fin.val (hall ⟨m % 64, hm⟩ ⟨n % 64, hn⟩ h)

theorem isDirnameChar_of_mem_base64urlDigits {bytes : List UInt8} :
    ∀ c ∈ base64urlDigits bytes, isDirnameChar c = true := by
  fun_induction base64urlDigits bytes with
  | case1 => exact fun c hc => by cases hc
  | case2 a => simp [isDirnameChar_base64urlDigit]
  | case3 a b => simp [isDirnameChar_base64urlDigit]
  | case4 a b c rest ih => simpa [isDirnameChar_base64urlDigit] using ih

theorem base64urlDigits_eq_nil {bytes : List UInt8} (h : base64urlDigits bytes = []) :
    bytes = [] := by
  cases bytes using base64urlDigits.fun_cases with
  | case1 => rfl
  | _ => cases h

/-- The encoding is its digits and at most two signs of padding. -/
theorem urlsafeB64encode_eq (bytes : List UInt8) :
    ∃ n, urlsafeB64encode bytes =
      base64urlDigits bytes ++ List.replicate n (CodePoint.ofNat 0x3D) := by
  fun_induction urlsafeB64encode bytes with
  | case1 => exact ⟨0, rfl⟩
  | case2 a => exact ⟨2, rfl⟩
  | case3 a b => exact ⟨1, rfl⟩
  | case4 a b c rest ih =>
      obtain ⟨n, hn⟩ := ih
      exact ⟨n, by rw [hn]; rfl⟩

theorem rstrip_append_replicate {drop : CodePoint → Bool} {s : PyStr} {pad : CodePoint}
    (hpad : drop pad = true) (hs : ∀ c ∈ s, drop c = false) (n : ℕ) :
    rstrip drop (s ++ List.replicate n pad) = s := by
  have hdrop : (List.replicate n pad).dropWhile drop = [] :=
    List.dropWhile_eq_nil_iff.mpr fun c hc => (List.eq_of_mem_replicate hc) ▸ hpad
  have hkeep : s.reverse.dropWhile drop = s.reverse := by
    cases hrev : s.reverse with
    | nil => rfl
    | cons c cs =>
        have hc : c ∈ s := by
          rw [← List.mem_reverse, hrev]
          exact List.mem_cons_self
        exact List.dropWhile_cons_of_neg (by simp [hs c hc])
  rw [rstrip, List.reverse_append, List.reverse_replicate, List.dropWhile_append, hdrop,
    List.isEmpty_nil, if_pos rfl, hkeep, List.reverse_reverse]

theorem releaseDirname_eq (release : PyStr) :
    releaseDirname release = (utf8Encode release).map base64urlDigits := by
  have hstrip (bytes : List UInt8) :
      rstrip (fun c => c.val = 0x3D) (urlsafeB64encode bytes) = base64urlDigits bytes := by
    obtain ⟨n, hn⟩ := urlsafeB64encode_eq bytes
    rw [hn]
    refine rstrip_append_replicate rfl (fun c hc => ?_) n
    have hchar := isDirnameChar_of_mem_base64urlDigits c hc
    by_contra hpad
    have hval : c.val = 0x3D := by simpa using hpad
    simp [isDirnameChar, hval] at hchar
  unfold releaseDirname
  cases utf8Encode release with
  | error e => rfl
  | ok bytes => exact congrArg Except.ok (hstrip bytes)

/-- Four digits are three bytes; the bits that are missing at the end are zero. -/
theorem bytes_of_digits {a b c a' b' c' : UInt8}
    (h₁ : base64urlDigit (a.toNat >>> 2) = base64urlDigit (a'.toNat >>> 2))
    (h₂ : base64urlDigit ((a.toNat <<< 4) + (b.toNat >>> 4)) =
      base64urlDigit ((a'.toNat <<< 4) + (b'.toNat >>> 4)))
    (h₃ : base64urlDigit ((b.toNat <<< 2) + (c.toNat >>> 6)) =
      base64urlDigit ((b'.toNat <<< 2) + (c'.toNat >>> 6)))
    (h₄ : base64urlDigit c.toNat = base64urlDigit c'.toNat) : a = a' ∧ b = b' ∧ c = c' := by
  have ha := a.toNat_lt
  have hb := b.toNat_lt
  have hc := c.toNat_lt
  have ha' := a'.toNat_lt
  have hb' := b'.toNat_lt
  have hc' := c'.toNat_lt
  have h₁ := base64urlDigit_inj h₁
  have h₂ := base64urlDigit_inj h₂
  have h₃ := base64urlDigit_inj h₃
  have h₄ := base64urlDigit_inj h₄
  simp only [Nat.shiftRight_eq_div_pow, Nat.shiftLeft_eq] at h₁ h₂ h₃
  simp only [← UInt8.toNat_inj]
  omega

theorem base64urlDigits_injective {xs ys : List UInt8}
    (h : base64urlDigits xs = base64urlDigits ys) : xs = ys := by
  induction xs using base64urlDigits.induct generalizing ys with
  | case1 => exact (base64urlDigits_eq_nil h.symm).symm
  | case2 a =>
      cases ys using base64urlDigits.fun_cases with
      | case2 a' =>
          simp only [base64urlDigits, List.cons.injEq, and_true] at h
          have hbytes : a = a' ∧ (0 : UInt8) = 0 ∧ (0 : UInt8) = 0 :=
            bytes_of_digits h.1 h.2 rfl rfl
          rw [hbytes.1]
      | _ => simp [base64urlDigits] at h
  | case3 a b =>
      cases ys using base64urlDigits.fun_cases with
      | case3 a' b' =>
          simp only [base64urlDigits, List.cons.injEq, and_true] at h
          have hbytes : a = a' ∧ b = b' ∧ (0 : UInt8) = 0 :=
            bytes_of_digits h.1 h.2.1 h.2.2 rfl
          rw [hbytes.1, hbytes.2.1]
      | _ => simp [base64urlDigits] at h
  | case4 a b c rest ih =>
      cases ys using base64urlDigits.fun_cases with
      | case4 a' b' c' rest' =>
          simp only [base64urlDigits, List.cons.injEq] at h
          obtain ⟨h₁, h₂, h₃, h₄, hrest⟩ := h
          obtain ⟨rfl, rfl, rfl⟩ := bytes_of_digits h₁ h₂ h₃ h₄
          rw [ih hrest]
      | _ => simp [base64urlDigits] at h

theorem releaseDirname_injective {release release' d : PyStr} (h : releaseDirname release = .ok d)
    (h' : releaseDirname release' = .ok d) : release = release' := by
  rw [releaseDirname_eq] at h h'
  cases hbytes : utf8Encode release with
  | error e =>
      rw [hbytes] at h
      cases h
  | ok bytes =>
      cases hbytes' : utf8Encode release' with
      | error e =>
          rw [hbytes'] at h'
          cases h'
      | ok bytes' =>
          rw [hbytes] at h
          rw [hbytes'] at h'
          obtain rfl := base64urlDigits_injective (Except.ok.inj (h.trans h'.symm))
          exact utf8Encode_injective hbytes hbytes'

/-- What the name of a release directory is made of. -/
theorem releaseDirname_spec {release d : PyStr} (h : releaseDirname release = .ok d) :
    (∀ c ∈ d, isDirnameChar c = true) ∧ (release ≠ [] → d ≠ []) := by
  have hempty : releaseDirname [] = .ok [] := rfl
  refine ⟨?_, fun hne hd => hne (releaseDirname_injective (hd ▸ h) hempty)⟩
  rw [releaseDirname_eq] at h
  cases hbytes : utf8Encode release with
  | error e =>
      rw [hbytes] at h
      cases h
  | ok bytes =>
      rw [hbytes] at h
      cases h
      exact isDirnameChar_of_mem_base64urlDigits

theorem releaseDirname_ok {release : PyStr} (h : release.Encodable) :
    ∃ d, releaseDirname release = .ok d := by
  obtain ⟨bytes, hbytes⟩ := utf8Encode_ok h
  rw [releaseDirname_eq, hbytes]
  exact ⟨_, rfl⟩

end Crashlens
