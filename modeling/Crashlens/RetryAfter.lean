import Crashlens.Library.SignificantDigits
import Crashlens.RateLimit

/-!
# Retry-After on rounded numbers

The token bucket with the numbers it really stores and returns: Lua's `tostring` keeps fourteen
significant digits. A wait computed from a rounded level is honoured by a decision that uses a
rounded time stamp exactly when the level did not round up to a whole token and the time stamp
did not round up by more than the level.
-/

namespace Crashlens.RetryAfter

open SignificantDigits TokenBucket

/-- `tonumber(tostring(x))` -/
def luaTostring (x : ℚ) : ℚ := roundDigits 14 x

section Script

variable (tostring : ℚ → ℚ)

/-- Redis after calls on any keys, oldest first. -/
def runCalls (redis : Redis) (calls : List (String × RateCall)) : Redis :=
  calls.foldl (fun redis call => (roundedRateLimit tostring redis call.1 call.2).2) redis

def emptyRedis : Redis := fun _ => none

/-- The wait is a wait, and after it the next call on the key is allowed, whatever happens on the
other keys in the meantime. -/
def Honoured (redis : Redis) (keyId : String) (call : RateCall) (wait : ℤ) : Prop :=
  1 ≤ wait ∧ ∀ others : List (String × RateCall), (∀ o ∈ others, o.1 ≠ keyId) →
    ∀ later : RateCall, call.now + wait ≤ later.now → call.clock ≤ later.clock →
      (roundedRateLimit tostring (runCalls tostring (roundedRateLimit tostring redis keyId call).2
        others) keyId later).1.allowed = true

variable {tostring} {redis : Redis} {keyId : String} {call : RateCall}

/-- The script counts exactly and rounds what it writes. -/
theorem roundedBucketLua_eq :
    roundedBucketLua tostring redis call.clock (bucketKey keyId) bucketCapacity refillPerSecond
      call.now 1 ttlSeconds =
    ((if 1 ≤ levelAt keyId redis call then 1 else 0, tostring (leftAt keyId redis call)),
      Function.update redis (bucketKey keyId)
        (some ⟨tostring (leftAt keyId redis call), tostring call.now,
          call.clock + ttlSeconds⟩)) := by
  let exact := tokenBucketLua redis call.clock (bucketKey keyId) bucketCapacity refillPerSecond
    call.now 1 ttlSeconds
  have hround : roundedBucketLua tostring redis call.clock (bucketKey keyId) bucketCapacity
      refillPerSecond call.now 1 ttlSeconds = ((exact.1.1, tostring exact.1.2),
        Function.update redis (bucketKey keyId)
          (some ⟨tostring exact.1.2, tostring call.now, call.clock + ttlSeconds⟩)) := rfl
  have hexact : exact = ((if 1 ≤ levelAt keyId redis call then 1 else 0, leftAt keyId redis call),
      _) := tokenBucketLua_eq
  rw [hround, hexact]

theorem roundedRateLimit_eq : roundedRateLimit tostring redis keyId call =
    (if 1 ≤ levelAt keyId redis call then ⟨true, 0⟩
      else ⟨false, retryAfterSeconds (tostring (levelAt keyId redis call)) refillPerSecond⟩,
     Function.update redis (bucketKey keyId)
      (some ⟨tostring (leftAt keyId redis call), tostring call.now, call.clock + ttlSeconds⟩)) := by
  rw [roundedRateLimit, roundedBucketLua_eq]
  by_cases h : 1 ≤ levelAt keyId redis call
  · simp [rateLimitDecision, h]
  · simp [rateLimitDecision, h, leftAt]

theorem redis_after : (roundedRateLimit tostring redis keyId call).2 =
    Function.update redis (bucketKey keyId)
      (some ⟨tostring (leftAt keyId redis call), tostring call.now, call.clock + ttlSeconds⟩) := by
  rw [roundedRateLimit_eq]

theorem allowed_iff : (roundedRateLimit tostring redis keyId call).1.allowed = true ↔
    1 ≤ levelAt keyId redis call := by
  rw [roundedRateLimit_eq]
  by_cases h : 1 ≤ levelAt keyId redis call <;> simp [h]

theorem denied_iff {wait : ℤ} : (roundedRateLimit tostring redis keyId call).1 = ⟨false, wait⟩ ↔
    levelAt keyId redis call < 1 ∧
      wait = retryAfterSeconds (tostring (levelAt keyId redis call)) refillPerSecond := by
  rw [roundedRateLimit_eq]
  by_cases h : 1 ≤ levelAt keyId redis call
  · simp [h]
  · simp [h, eq_comm, not_le.mp h]

end Script

/-! ## Runs -/

section Runs

variable {tostring : ℚ → ℚ} {redis : Redis} {keyId : String} {call : RateCall}

/-- No bucket is in debt. -/
def NonNegative (redis : Redis) : Prop := ∀ key, ∀ b ∈ redis key, 0 ≤ b.tokens

theorem levelAt_stored {b : Bucket} (hb : redis (bucketKey keyId) = some b)
    (hkept : call.clock ≤ b.expireAt) :
    levelAt keyId redis call = min bucketCapacity (b.tokens + max 0 (call.now - b.ts)) := by
  simp only [levelAt, hmget, hb, Option.filter_some, hkept, decide_true, if_true,
    refillPerSecond_eq, mul_one]

/-- What a call finds of a bucket is not in debt either. -/
theorem NonNegative.hmget (h : NonNegative redis) (clock : ℚ) (key : String) :
    ∀ b ∈ (hmget redis clock key).map Bucket.stored, 0 ≤ b.tokens := by
  intro b hb
  obtain ⟨bucket, hbucket, rfl⟩ := Option.mem_map.mp hb
  exact h key bucket (Option.filter_eq_some_iff.mp hbucket).1

theorem levelAt_nonneg (h : NonNegative redis) : 0 ≤ levelAt keyId redis call := by
  rw [levelAt_eq]
  exact Rules.level_nonneg (h.hmget call.clock (bucketKey keyId)) call.now

theorem leftAt_nonneg (h : NonNegative redis) : 0 ≤ leftAt keyId redis call := by
  rw [leftAt_eq]
  exact Rules.left_nonneg (h.hmget call.clock (bucketKey keyId)) call.now

theorem NonNegative.step (hround : ∀ x, 0 ≤ x → 0 ≤ tostring x) (h : NonNegative redis) :
    NonNegative (roundedRateLimit tostring redis keyId call).2 := by
  have hleft : 0 ≤ tostring (leftAt keyId redis call) := hround _ (leftAt_nonneg h)
  rw [NonNegative, redis_after, Function.forall_update_iff redis fun _ state =>
    ∀ b ∈ state, 0 ≤ b.tokens]
  constructor
  · rintro b ⟨⟩
    exact hleft
  · exact fun key _ => h key

theorem NonNegative.runCalls (hround : ∀ x, 0 ≤ x → 0 ≤ tostring x) (h : NonNegative redis)
    (calls : List (String × RateCall)) : NonNegative (runCalls tostring redis calls) := by
  induction calls generalizing redis with
  | nil => exact h
  | cons call calls ih => exact ih (h.step hround)

theorem nonNegative_emptyRedis : NonNegative emptyRedis := fun _ _ hb => by cases hb

theorem runCalls_concat (calls : List (String × RateCall)) :
    runCalls tostring redis (calls ++ [(keyId, call)]) =
      (roundedRateLimit tostring (runCalls tostring redis calls) keyId call).2 := by
  rw [runCalls, List.foldl_append]
  rfl

/-- Calls on other keys leave the bucket alone. -/
theorem runCalls_others {others : List (String × RateCall)} (h : ∀ o ∈ others, o.1 ≠ keyId) :
    runCalls tostring redis others (bucketKey keyId) = redis (bucketKey keyId) := by
  induction others generalizing redis with
  | nil => rfl
  | cons other others ih =>
      rw [List.forall_mem_cons] at h
      have hstep : (roundedRateLimit tostring redis other.1 other.2).2 (bucketKey keyId) =
          redis (bucketKey keyId) := by
        rw [redis_after]
        exact Function.update_of_ne (fun heq => h.1 (bucketKey_injective heq).symm) _ _
      rw [← hstep]
      exact ih h.2

/-- What the next call on the key finds is decided by the bucket the last one left. -/
theorem levelAt_later {others : List (String × RateCall)} (h : ∀ o ∈ others, o.1 ≠ keyId)
    (later : RateCall) :
    levelAt keyId (runCalls tostring (roundedRateLimit tostring redis keyId call).2 others) later =
      min bucketCapacity (if later.clock ≤ call.clock + ttlSeconds then
        tostring (leftAt keyId redis call) + max 0 (later.now - tostring call.now)
      else bucketCapacity) := by
  rw [levelAt, hmget, runCalls_others h, redis_after]
  simp only [Function.update_self, Option.filter_some, refillPerSecond_eq, mul_one,
    decide_eq_true_eq]
  split_ifs <;> rfl

end Runs

/-! ## The wait -/

section Wait

variable {tostring : ℚ → ℚ} {redis : Redis} {keyId : String} {call : RateCall} {wait : ℤ}

theorem le_add_ttlSeconds (clock : ℚ) : clock ≤ clock + ttlSeconds := by
  have httl : (0 : ℚ) ≤ ttlSeconds := by
    norm_num [ttlSeconds, bucketCapacity, refillPerSecond_eq]
  linarith

theorem retryAfterSeconds_of_lt {tokens : ℚ} (h : tokens < 1) (hpos : 0 ≤ tokens) :
    retryAfterSeconds tokens refillPerSecond = 1 := by
  have hceil : ⌈1 - tokens⌉ ≤ 1 := Int.ceil_le.mpr (by push_cast; linarith)
  simp only [retryAfterSeconds, refillPerSecond_eq, div_one]
  rw [if_neg (by linarith), max_eq_left hceil]

theorem retryAfterSeconds_of_le {tokens : ℚ} (h : 1 ≤ tokens) :
    retryAfterSeconds tokens refillPerSecond = 0 := by
  simp only [retryAfterSeconds]
  rw [if_pos (by linarith)]

/-- A second later the bucket has refilled unless its time stamp is too far ahead. -/
theorem honoured_second_iff (hlevel : levelAt keyId redis call < 1)
    (hwritten : tostring (levelAt keyId redis call) < 1) :
    Honoured tostring redis keyId call 1 ↔
      tostring call.now - call.now ≤ tostring (levelAt keyId redis call) := by
  have hleft : leftAt keyId redis call = levelAt keyId redis call := if_neg (not_le.mpr hlevel)
  have hcapacity : (1 : ℚ) ≤ bucketCapacity := by norm_num [bucketCapacity]
  constructor
  · rintro ⟨-, hafter⟩
    have hone := hafter [] (by simp) ⟨call.now + 1, call.clock⟩ (by push_cast; exact le_rfl) le_rfl
    rw [allowed_iff, levelAt_later (by simp), if_pos (le_add_ttlSeconds _), hleft] at hone
    have hcredit := (le_min_iff.mp hone).2
    rcases le_total 0 (call.now + 1 - tostring call.now) with hpos | hneg
    · rw [max_eq_right hpos] at hcredit
      linarith
    · rw [max_eq_left hneg] at hcredit
      linarith
  · intro hstamp
    refine ⟨le_rfl, fun others hothers later hnow hclock => ?_⟩
    rw [allowed_iff, levelAt_later hothers, hleft]
    apply le_min hcapacity
    split_ifs
    · have hcredit := le_max_right 0 (later.now - tostring call.now)
      push_cast at hnow
      linarith
    · exact hcapacity

theorem honoured_iff (hround : ∀ x, 0 ≤ x → 0 ≤ tostring x) (h : NonNegative redis)
    (hdenied : (roundedRateLimit tostring redis keyId call).1 = ⟨false, wait⟩) :
    Honoured tostring redis keyId call wait ↔ tostring (levelAt keyId redis call) < 1 ∧
      tostring call.now - call.now ≤ tostring (levelAt keyId redis call) := by
  obtain ⟨hlevel, rfl⟩ := denied_iff.mp hdenied
  by_cases hwritten : tostring (levelAt keyId redis call) < 1
  · rw [retryAfterSeconds_of_lt hwritten (hround _ (levelAt_nonneg h)),
      honoured_second_iff hlevel hwritten, and_iff_right hwritten]
  · rw [retryAfterSeconds_of_le (not_lt.mp hwritten)]
    constructor
    · rintro ⟨hwait, -⟩
      omega
    · exact fun hcond => absurd hcond.1 hwritten

end Wait

section Honoured

theorem luaTostring_nonneg (x : ℚ) (h : 0 ≤ x) : 0 ≤ luaTostring x := roundDigits_nonneg h

/-- Rounding to fourteen digits leaves the small whole numbers alone. -/
theorem bucket_taken {redis : Redis} {keyId : String} {call : RateCall} {k : ℕ} (hk : k < 121)
    (hlevel : levelAt keyId redis call = k + 1) :
    (roundedRateLimit luaTostring redis keyId call).2 (bucketKey keyId) =
      some ⟨k, luaTostring call.now, call.clock + ttlSeconds⟩ := by
  have hwhole : ∀ k : Fin 121, luaTostring k.val = k.val := by decide +kernel
  have hone : (1 : ℚ) ≤ k + 1 := by
    have hk : (0 : ℚ) ≤ k := Nat.cast_nonneg k
    linarith
  rw [redis_after, Function.update_self, leftAt, hlevel, if_pos hone, add_sub_cancel_right,
    hwhole ⟨k, hk⟩]

/-- Calls at one instant take the tokens of a new bucket one by one. -/
theorem bucket_drained (keyId : String) (clock : ℚ) {now : ℚ} (h : now ≤ luaTostring now) {n : ℕ}
    (hn : n < 120) :
    runCalls luaTostring emptyRedis (List.replicate (n + 1) (keyId, ⟨now, clock⟩))
      (bucketKey keyId) = some ⟨(119 - n : ℕ), luaTostring now, clock + ttlSeconds⟩ := by
  induction n with
  | zero =>
      refine bucket_taken (by decide) ?_
      simp only [levelAt, hmget, emptyRedis, Option.filter_none, min_self]
      norm_num [bucketCapacity]
  | succ n ih =>
      rw [List.replicate_succ', runCalls_concat]
      refine bucket_taken (by omega) ?_
      have hcast : ((119 - n : ℕ) : ℚ) = ((119 - (n + 1) : ℕ) : ℚ) + 1 := by
        rw [show 119 - n = 119 - (n + 1) + 1 by omega]
        push_cast
        rfl
      have hsmall : ((119 - n : ℕ) : ℚ) ≤ bucketCapacity := by
        have hle : ((119 - n : ℕ) : ℚ) ≤ (119 : ℕ) := Nat.cast_le.mpr (by omega)
        exact hle.trans (by norm_num [bucketCapacity])
      rw [levelAt_stored (ih (by omega)) (le_add_ttlSeconds clock)]
      simp only [max_eq_left (sub_nonpos.mpr h), add_zero]
      rw [min_eq_right hsmall, hcast]

theorem level_drained (keyId : String) (clock later : ℚ) {now : ℚ} (h : now ≤ luaTostring now) :
    levelAt keyId (runCalls luaTostring emptyRedis (List.replicate 120 (keyId, ⟨now, clock⟩)))
      ⟨later, clock⟩ = min bucketCapacity (max 0 (later - luaTostring now)) := by
  rw [levelAt_stored (bucket_drained keyId clock h (n := 119) (by omega)) (le_add_ttlSeconds clock)]
  norm_num

/-- The wait of a denied call is honoured when its level reads as less than a token and its time
stamp runs ahead of its time by no more than that level. -/
theorem retry_after_honoured_iff (calls : List (String × RateCall)) (keyId : String)
    (call : RateCall) (wait : ℤ)
    (hdenied : (roundedRateLimit luaTostring (runCalls luaTostring emptyRedis calls) keyId call).1 =
      ⟨false, wait⟩) :
    Honoured luaTostring (runCalls luaTostring emptyRedis calls) keyId call wait ↔
      luaTostring (levelAt keyId (runCalls luaTostring emptyRedis calls) call) < 1 ∧
        luaTostring call.now - call.now ≤
          luaTostring (levelAt keyId (runCalls luaTostring emptyRedis calls) call) :=
  honoured_iff luaTostring_nonneg (nonNegative_emptyRedis.runCalls luaTostring_nonneg calls) hdenied

/-- A level of half a token is honoured. -/
theorem half_second_honoured :
    Honoured luaTostring (runCalls luaTostring emptyRedis (List.replicate 120 ("k", ⟨0, 0⟩))) "k"
      ⟨1 / 2, 0⟩ 1 := by
  have hlevel : levelAt "k" (runCalls luaTostring emptyRedis (List.replicate 120 ("k", ⟨0, 0⟩)))
      ⟨1 / 2, 0⟩ = 1 / 2 := (level_drained _ _ _ (by decide +kernel)).trans (by decide +kernel)
  refine (retry_after_honoured_iff _ "k" ⟨1 / 2, 0⟩ 1 (denied_iff.mpr ?_)).mpr ?_
  · rw [hlevel]
    decide +kernel
  · rw [hlevel]
    decide +kernel

theorem stamp_rounded_up_not_honoured :
    ¬ ∀ (calls : List (String × RateCall)) (keyId : String) (call : RateCall) (wait : ℤ),
      (roundedRateLimit luaTostring (runCalls luaTostring emptyRedis calls) keyId call).1 =
          ⟨false, wait⟩ →
        Honoured luaTostring (runCalls luaTostring emptyRedis calls) keyId call wait := by
  intro hall
  let now : ℚ := 170000000000006 / 100000
  let calls : List (String × RateCall) := List.replicate 120 ("k", ⟨now, 0⟩)
  have hlevel : levelAt "k" (runCalls luaTostring emptyRedis calls) ⟨now, 0⟩ = 0 :=
    (level_drained _ _ _ (by decide +kernel)).trans (by decide +kernel)
  have hdenied : (roundedRateLimit luaTostring (runCalls luaTostring emptyRedis calls) "k"
      ⟨now, 0⟩).1 = ⟨false, 1⟩ := by
    rw [denied_iff, hlevel]
    decide +kernel
  have hhonoured := hall calls "k" ⟨now, 0⟩ 1 hdenied
  rw [honoured_iff luaTostring_nonneg (nonNegative_emptyRedis.runCalls luaTostring_nonneg calls)
    hdenied, hlevel] at hhonoured
  exact absurd hhonoured.2 (by decide +kernel)

/-- A time in seconds of ten digits keeps four decimals, so a level that is written as one and
reaches half a unit of the last of them leaves room for the time stamp. -/
theorem honoured_of_ten_digit_time {calls : List (String × RateCall)} {keyId : String}
    {call : RateCall} {wait : ℤ}
    (hdenied : (roundedRateLimit luaTostring (runCalls luaTostring emptyRedis calls) keyId call).1 =
      ⟨false, wait⟩) (hnow : |call.now| < 10 ^ (10 : ℤ))
    (hlow : 1 / 20000 ≤ luaTostring (levelAt keyId (runCalls luaTostring emptyRedis calls) call))
    (hhigh : luaTostring (levelAt keyId (runCalls luaTostring emptyRedis calls) call) < 1) :
    Honoured luaTostring (runCalls luaTostring emptyRedis calls) keyId call wait := by
  have hstamp : |luaTostring call.now - call.now| ≤ 10 ^ ((10 : ℤ) - (14 : ℕ)) / 2 :=
    roundDigits_error hnow
  have hunit : (10 : ℚ) ^ ((10 : ℤ) - (14 : ℕ)) / 2 = 1 / 20000 := by norm_num
  rw [honoured_iff luaTostring_nonneg (nonNegative_emptyRedis.runCalls luaTostring_nonneg calls)
    hdenied]
  refine ⟨hhigh, (le_abs_self _).trans ?_⟩
  linarith

end Honoured

end Crashlens.RetryAfter
