import Crashlens.Library.VariableLength
import Crashlens.Sourcemaps

/-!
# Base64 VLQ

`decodeVlq` reads the base64 digits of a segment as variable-length quantities to the base 32. What
is read back from an encoded list is the list, and an error means a character that is no digit or a
last digit that promises another one.
-/

namespace Crashlens

open VariableLength

def b64Digit (d : ℕ) : CodePoint := b64.getD d (CodePoint.ofNat 0)

/-- The sign in the lowest bit, five bits a digit, the least significant digit first. -/
def encodeVlq (values : List ℤ) : PyStr :=
  (values.flatMap fun v => encode 32 (ofInt v)).map b64Digit

/-- The continuation bit of a digit. -/
def continues (c : CodePoint) : Bool :=
  match b64.idxOf? c with
  | some digit => digit &&& vlqContinuation ≠ 0
  | none => false

section Digits

theorem idxOf?_b64Digit {d : ℕ} (h : d < 64) : b64.idxOf? (b64Digit d) = some d := by
  have hall : ∀ d : Fin 64, b64.idxOf? (b64Digit d) = some d.val := by decide +kernel
  exact hall ⟨d, h⟩

theorem idxOf?_lt {c : CodePoint} {d : ℕ} (h : b64.idxOf? c = some d) : d < 64 := by
  have hlength : b64.length = 64 := by decide +kernel
  rw [← hlength]
  exact List.findIdx?_eq_some_iff_findIdx_eq.mp h |>.1

theorem idxOf?_eq_none {c : CodePoint} : b64.idxOf? c = none ↔ c ∉ b64 := List.idxOf?_eq_none_iff

theorem and_continuation {d : ℕ} (h : d < 64) : d &&& vlqContinuation ≠ 0 ↔ 32 ≤ d := by
  have hall : ∀ d : Fin 64, d.val &&& vlqContinuation ≠ 0 ↔ 32 ≤ d.val := by decide
  exact hall ⟨d, h⟩

theorem continues_iff {c : CodePoint} :
    continues c = true ↔ ∃ d, b64.idxOf? c = some d ∧ 32 ≤ d := by
  unfold continues
  cases h : b64.idxOf? c with
  | none => simp
  | some d => simp [and_continuation (idxOf?_lt h)]

theorem mapM_b64Digit {ds : List ℕ} (h : ∀ d ∈ ds, d < 64) :
    (ds.map b64Digit).mapM b64.idxOf? = some ds := by
  induction ds with
  | nil => rfl
  | cons d ds ih =>
      rw [List.forall_mem_cons] at h
      rw [List.map_cons, List.mapM_cons, idxOf?_b64Digit h.1, ih h.2]
      rfl

theorem mapM_idxOf?_eq_none {s : PyStr} : s.mapM b64.idxOf? = none ↔ ∃ c ∈ s, c ∉ b64 := by
  induction s with
  | nil => simp
  | cons c s ih =>
      rw [List.mapM_cons, List.exists_mem_cons_iff, ← ih, ← idxOf?_eq_none]
      cases b64.idxOf? c with
      | none => simp
      | some d => cases s.mapM b64.idxOf? <;> simp

theorem getLast?_of_mapM {s : PyStr} {ds : List ℕ} (h : s.mapM b64.idxOf? = some ds) :
    ds.getLast? = s.getLast?.bind b64.idxOf? := by
  induction s generalizing ds with
  | nil =>
      cases h
      rfl
  | cons c s ih =>
      rw [List.mapM_cons] at h
      obtain ⟨d, hd, h⟩ := Option.bind_eq_some_iff.mp h
      obtain ⟨ds, hds, h⟩ := Option.bind_eq_some_iff.mp h
      cases h
      cases s with
      | nil =>
          cases hds
          exact hd.symm
      | cons c' s =>
          have hlast := ih hds
          rw [List.getLast?_cons_cons, ← hlast]
          cases ds with
          | nil =>
              rw [List.getLast?_nil, List.getLast?_cons, Option.bind_some] at hlast
              rw [List.mapM_cons] at hds
              obtain ⟨d', -, hds⟩ := Option.bind_eq_some_iff.mp hds
              obtain ⟨ds', -, hds⟩ := Option.bind_eq_some_iff.mp hds
              cases hds
          | cons d' ds => rfl

theorem unfinished_iff {s : PyStr} {ds : List ℕ} (h : s.mapM b64.idxOf? = some ds) :
    Unfinished 32 ds ↔ ∃ c, s.getLast? = some c ∧ continues c = true := by
  simp only [Unfinished, getLast?_of_mapM h, Option.bind_eq_some_iff, continues_iff]
  constructor
  · rintro ⟨d, ⟨c, hc, hd⟩, hle⟩
    exact ⟨c, hc, d, hd, hle⟩
  · rintro ⟨c, hc, d, hd, hle⟩
    exact ⟨d, ⟨c, hc, hd⟩, hle⟩

end Digits

theorem signed_eq (n : ℕ) :
    (if n &&& 1 ≠ 0 then -((n >>> 1 : ℕ) : ℤ) else ((n >>> 1 : ℕ) : ℤ)) = toInt n := by
  rw [toInt, Nat.shiftRight_one, Nat.and_one_is_mod]
  exact if_congr Nat.mod_two_ne_zero rfl rfl

/-- The loop reads variable-length quantities, from wherever it is. -/
theorem decodeVlqLoop_eq (s : PyStr) (shift acc : ℕ) (haveBits : Bool) (values : List ℤ) :
    decodeVlqLoop s shift acc haveBits values =
      match (s.mapM b64.idxOf?).bind (decodeFrom 32 · (2 ^ shift) acc haveBits) with
      | none => .error .valueError
      | some ns => .ok (values ++ ns.map toInt) := by
  induction s generalizing shift acc haveBits values with
  | nil =>
      rw [decodeVlqLoop, List.mapM_nil]
      cases haveBits with
      | true => rfl
      | false => exact congrArg Except.ok (List.append_nil values).symm
  | cons c s ih =>
      rw [decodeVlqLoop, List.mapM_cons]
      cases hc : b64.idxOf? c with
      | none => rfl
      | some digit =>
          have hmask : digit &&& vlqMask = digit % 32 := Nat.and_two_pow_sub_one_eq_mod digit 5
          have hacc : acc + (digit &&& vlqMask) <<< shift = acc + digit % 32 * 2 ^ shift := by
            rw [hmask, Nat.shiftLeft_eq]
          have hunit : 2 ^ shift * 32 = 2 ^ (shift + 5) := (Nat.pow_add 2 shift 5).symm
          have hbit := and_continuation (idxOf?_lt hc)
          dsimp only
          rw [hacc, ih, ih, signed_eq]
          cases s.mapM b64.idxOf? with
          | none => split_ifs <;> rfl
          | some ds =>
              by_cases hlow : 32 ≤ digit
              · rw [if_pos (hbit.mpr hlow)]
                simp only [Option.bind_eq_bind, Option.bind_some, decodeFrom, if_pos hlow, hunit,
                  pure]
              · rw [if_neg fun h => hlow (hbit.mp h)]
                simp only [Option.bind_eq_bind, Option.bind_some, decodeFrom, if_neg hlow,
                  pure, Nat.pow_zero]
                cases decodeFrom 32 ds 1 0 false with
                | none => rfl
                | some ns => simp

theorem decodeVlq_eq (s : PyStr) : decodeVlq s =
    match (s.mapM b64.idxOf?).bind (decode 32) with
    | none => .error .valueError
    | some ns => .ok (ns.map toInt) := decodeVlqLoop_eq s 0 0 false []

theorem decodeVlq_encodeVlq (values : List ℤ) : decodeVlq (encodeVlq values) = .ok values := by
  have hdigits : ∀ d ∈ values.flatMap fun v => encode 32 (ofInt v), d < 64 := by
    intro d hd
    obtain ⟨v, -, hv⟩ := List.mem_flatMap.mp hd
    exact encode_lt (by decide) (ofInt v) d hv
  have hflat : values.flatMap (fun v => encode 32 (ofInt v)) =
      (values.map ofInt).flatMap (encode 32) := (List.flatMap_map ..).symm
  rw [decodeVlq_eq, encodeVlq, mapM_b64Digit hdigits, hflat, Option.bind_some,
    decode_encode (by decide)]
  have hback : toInt ∘ ofInt = id := funext toInt_ofInt
  dsimp only
  rw [List.map_map, hback, List.map_id]

/-- What `decodeVlq` rejects. -/
def Malformed (s : PyStr) : Prop :=
  (∃ c ∈ s, c ∉ b64) ∨ ∃ c, s.getLast? = some c ∧ continues c = true

theorem decodeVlq_cases (s : PyStr) :
    decodeVlq s = .error .valueError ∧ Malformed s ∨
      (∃ values, decodeVlq s = .ok values) ∧ ¬ Malformed s := by
  rw [decodeVlq_eq, Malformed, ← mapM_idxOf?_eq_none]
  cases hdigits : s.mapM b64.idxOf? with
  | none => exact .inl ⟨rfl, .inl rfl⟩
  | some ds =>
      rw [← unfinished_iff hdigits, ← decode_eq_none_iff, Option.bind_some]
      cases decode 32 ds with
      | none => exact .inl ⟨rfl, .inr rfl⟩
      | some ns => exact .inr ⟨⟨_, rfl⟩, by simp⟩

/-- Decoding takes an encoded list back, and it raises exactly on what is malformed. -/
theorem decodeVlq_exact (values : List ℤ) (s : PyStr) :
    decodeVlq (encodeVlq values) = .ok values ∧
      (decodeVlq s = .error .valueError ↔
        (∃ c ∈ s, c ∉ b64) ∨ ∃ c, s.getLast? = some c ∧ continues c = true) := by
  refine ⟨decodeVlq_encodeVlq values, ?_⟩
  obtain ⟨herror, hmalformed⟩ | ⟨⟨values', hok⟩, hwell⟩ := decodeVlq_cases s
  · exact iff_of_true herror hmalformed
  · refine iff_of_false (fun herror => ?_) hwell
    cases hok.symm.trans herror

example : encodeVlq [6, 0, 0, 7, -1, 16] = py "MAAODgB" := by decide +kernel

end Crashlens
