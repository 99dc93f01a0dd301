import Crashlens.Library.Metering
import Crashlens.Library.TokenBucket
import Mathlib.Algebra.Order.Field.Rat
import Mathlib.Data.Rat.Floor

/-!
# Ingest rate limit

The token bucket of `ratelimit.py`: one Redis hash per DSN key, read and rewritten by one script.
Every caller supplies its own clock as `now`, while the expiry of the hash follows the clock of the
Redis server. Arithmetic is exact.

The script clamps a negative `elapsed` to zero but stores the caller's `now` all the same. A clock
that steps back and forth over one second is therefore credited with that second each time. The
calls allowed stay within capacity plus refill over the span of the clock readings as long as the
readings run forward over no instant twice and no bucket expires before it has refilled.
-/

namespace Crashlens

open Transactional Metering TokenBucket

def bucketCapacity : ℚ := 120
def refillPerMinute : ℚ := 60
def refillPerSecond : ℚ := refillPerMinute / 60
def keyPrefix : String := "ingest:ratelimit:"
def ttlSeconds : ℚ := ⌊bucketCapacity / refillPerSecond⌋ + 60

/-- The hash of one key and the time Redis drops it. -/
structure Bucket where
  tokens : ℚ
  ts : ℚ
  expireAt : ℚ
deriving DecidableEq

abbrev Redis := String → Option Bucket

/-- `HMGET`, at time `clock` of the Redis server. -/
def hmget (redis : Redis) (clock : ℚ) (key : String) : Option Bucket :=
  (redis key).filter fun b => clock ≤ b.expireAt

/-- The numbers of `_TOKEN_BUCKET_LUA`, from the two fields of the hash. -/
def takeTokens (tokens ts : Option ℚ) (capacity refill now requested : ℚ) : ℕ × ℚ :=
  let tokens := tokens.getD capacity
  let ts := ts.getD now
  let elapsed := if now - ts < 0 then 0 else now - ts
  let level := min capacity (tokens + elapsed * refill)
  let allowed := if requested ≤ level then 1 else 0
  let left := if requested ≤ level then level - requested else level
  (allowed, left)

/-- `_TOKEN_BUCKET_LUA`, with what `tostring` makes of a number. -/
def roundedBucketLua (tostring : ℚ → ℚ) (redis : Redis) (clock : ℚ) (key : String)
    (capacity refill now requested ttl : ℚ) : (ℕ × ℚ) × Redis :=
  let state := hmget redis clock key
  let taken := takeTokens (state.map Bucket.tokens) (state.map Bucket.ts) capacity refill now
    requested
  ((taken.1, tostring taken.2),
    Function.update redis key (some ⟨tostring taken.2, tostring now, clock + ttl⟩))

/-- `_TOKEN_BUCKET_LUA` on exact numbers. -/
def tokenBucketLua (redis : Redis) (clock : ℚ) (key : String)
    (capacity refill now requested ttl : ℚ) : (ℕ × ℚ) × Redis :=
  roundedBucketLua id redis clock key capacity refill now requested ttl

structure RateLimitDecision where
  allowed : Bool
  retryAfter : ℤ
deriving DecidableEq

def retryAfterSeconds (tokensAvailable refill : ℚ) : ℤ :=
  let deficit := 1 - tokensAvailable
  if deficit ≤ 0 then 0 else max 1 ⌈deficit / refill⌉

/-- One call: what its process reads as the current time, and the Redis server's time. -/
structure RateCall where
  now : ℚ
  clock : ℚ

def bucketKey (keyId : String) : String := keyPrefix ++ keyId

theorem bucketKey_injective : Function.Injective bucketKey :=
  fun _ _ h => (String.append_right_inj keyPrefix).mp h

/-- What the script returns, as a decision. -/
def rateLimitDecision (taken : ℕ × ℚ) : RateLimitDecision :=
  if taken.1 = 1 then ⟨true, 0⟩ else ⟨false, retryAfterSeconds taken.2 refillPerSecond⟩

/-- `check_rate_limit`, with the numbers of the script as they are written. -/
def roundedRateLimit (tostring : ℚ → ℚ) (redis : Redis) (keyId : String) (call : RateCall) :
    RateLimitDecision × Redis :=
  let outcome := roundedBucketLua tostring redis call.clock (bucketKey keyId) bucketCapacity
    refillPerSecond call.now 1 ttlSeconds
  (rateLimitDecision outcome.1, outcome.2)

def checkRateLimit (redis : Redis) (keyId : String) (call : RateCall) :
    RateLimitDecision × Redis := roundedRateLimit id redis keyId call

def ingestRules : Rules ℚ where
  capacity := bucketCapacity
  refill := refillPerSecond
  cost := 1
  capacity_nonneg := by norm_num [bucketCapacity]
  refill_nonneg := by norm_num [refillPerSecond, refillPerMinute]
  cost_nonneg := by norm_num

/-- The hash without the time Redis drops it. -/
def Bucket.stored (b : Bucket) : TokenBucket.Stored ℚ := ⟨b.tokens, b.ts⟩

section Calls

variable (keyId : String)

def rateStep (redis : Redis) (call : RateCall) : Option Redis :=
  some (checkRateLimit redis keyId call).2

def allows (redis : Redis) (call : RateCall) : Bool := (checkRateLimit redis keyId call).1.allowed

def allowedCount (redis : Redis) (calls : List RateCall) : ℕ :=
  countAlong (rateStep keyId) (allows keyId) redis calls

/-- The caller's clock has run far enough to refill a bucket that Redis has dropped. -/
def FullIfExpired (redis : Redis) (call : RateCall) : Prop :=
  ∀ b ∈ redis (bucketKey keyId), b.expireAt < call.clock →
    bucketCapacity ≤ b.tokens + max 0 (call.now - b.ts) * refillPerSecond

/-- No call after the first finds a bucket dropped before it was full. -/
def ExpiresFull (redis : Redis) : List RateCall → Prop
  | [] => True
  | call :: calls =>
    Along (rateStep keyId) (FullIfExpired keyId) (checkRateLimit redis keyId call).2 calls

/-- The clock readings run forward over no instant twice. -/
def CreditsOnce (calls : List RateCall) : Prop :=
  (forwardMoves (calls.map RateCall.now)).Pairwise Apart

end Calls

section Bucket

variable {keyId : String} {redis : Redis} {call : RateCall}

/-- The tokens a call finds, before it takes one. -/
def levelAt (keyId : String) (redis : Redis) (call : RateCall) : ℚ :=
  min bucketCapacity (match hmget redis call.clock (bucketKey keyId) with
    | some b => b.tokens + max 0 (call.now - b.ts) * refillPerSecond
    | none => bucketCapacity)

theorem clamp_eq_max (x : ℚ) : (if x < 0 then 0 else x) = max 0 x := by
  by_cases hx : x < 0
  · rw [if_pos hx, max_eq_left hx.le]
  · rw [if_neg hx, max_eq_right (not_lt.mp hx)]

/-- What a call leaves in the bucket. -/
def leftAt (keyId : String) (redis : Redis) (call : RateCall) : ℚ :=
  if 1 ≤ levelAt keyId redis call then levelAt keyId redis call - 1 else levelAt keyId redis call

/-- The script refills, takes the tokens requested if they are there, and stores the caller's
clock. -/
theorem tokenBucketLua_stored (r : Rules ℚ) (redis : Redis) (clock : ℚ) (key : String)
    (now ttl : ℚ) :
    tokenBucketLua redis clock key r.capacity r.refill now r.cost ttl =
      ((if r.cost ≤ r.level ((hmget redis clock key).map Bucket.stored) now then 1 else 0,
          r.left ((hmget redis clock key).map Bucket.stored) now),
        Function.update redis key
          (some ⟨r.left ((hmget redis clock key).map Bucket.stored) now, now, clock + ttl⟩)) := by
  have hlevel : r.level ((hmget redis clock key).map Bucket.stored) now =
      min r.capacity (((hmget redis clock key).map Bucket.tokens).getD r.capacity +
        max 0 (now - ((hmget redis clock key).map Bucket.ts).getD now) * r.refill) := by
    rw [Rules.level_eq_getD, Option.map_map, Option.map_map]
    rfl
  rw [Rules.left, hlevel]
  simp only [tokenBucketLua, roundedBucketLua, takeTokens, clamp_eq_max, id]

theorem levelAt_eq (keyId : String) (redis : Redis) (call : RateCall) :
    levelAt keyId redis call =
      ingestRules.level ((hmget redis call.clock (bucketKey keyId)).map Bucket.stored)
        call.now := by
  unfold levelAt
  cases hmget redis call.clock (bucketKey keyId) with
  | none => exact min_self bucketCapacity
  | some b => rfl

theorem leftAt_eq (keyId : String) (redis : Redis) (call : RateCall) :
    leftAt keyId redis call =
      ingestRules.left ((hmget redis call.clock (bucketKey keyId)).map Bucket.stored)
        call.now := by
  rw [leftAt, levelAt_eq]
  rfl

theorem tokenBucketLua_eq :
    tokenBucketLua redis call.clock (bucketKey keyId) bucketCapacity refillPerSecond call.now 1
      ttlSeconds =
    ((if 1 ≤ levelAt keyId redis call then 1 else 0, leftAt keyId redis call),
     Function.update redis (bucketKey keyId)
      (some ⟨leftAt keyId redis call, call.now, call.clock + ttlSeconds⟩)) := by
  rw [leftAt_eq, levelAt_eq]
  exact tokenBucketLua_stored ingestRules redis call.clock (bucketKey keyId) call.now ttlSeconds

theorem checkRateLimit_eq : checkRateLimit redis keyId call =
    (rateLimitDecision (if 1 ≤ levelAt keyId redis call then 1 else 0, leftAt keyId redis call),
     Function.update redis (bucketKey keyId)
      (some ⟨leftAt keyId redis call, call.now, call.clock + ttlSeconds⟩)) := by
  have hscript : checkRateLimit redis keyId call =
      Prod.map rateLimitDecision id (tokenBucketLua redis call.clock (bucketKey keyId)
        bucketCapacity refillPerSecond call.now 1 ttlSeconds) := rfl
  rw [hscript, tokenBucketLua_eq]
  rfl

theorem allows_iff : allows keyId redis call = true ↔ 1 ≤ levelAt keyId redis call := by
  by_cases h : 1 ≤ levelAt keyId redis call <;>
    simp [allows, checkRateLimit_eq, rateLimitDecision, h]

@[simp] theorem bucket_after : (checkRateLimit redis keyId call).2 (bucketKey keyId) =
    some ⟨leftAt keyId redis call, call.now, call.clock + ttlSeconds⟩ := by
  rw [checkRateLimit_eq]
  exact Function.update_self ..

/-- Tokens in hand; a bucket in debt counts as empty. -/
def held (keyId : String) (redis : Redis) : ℚ :=
  match redis (bucketKey keyId) with
  | some b => max 0 b.tokens
  | none => 0

def earned (keyId : String) (redis : Redis) (call : RateCall) : ℚ :=
  match redis (bucketKey keyId) with
  | some b => refillPerSecond * max 0 (call.now - b.ts)
  | none => 0

theorem refillPerSecond_eq : refillPerSecond = 1 := by norm_num [refillPerSecond, refillPerMinute]

theorem held_nonneg (keyId : String) (redis : Redis) : 0 ≤ held keyId redis := by
  unfold held
  split
  · exact le_max_left _ _
  · exact le_rfl

/-- Whatever the call finds, it leaves the rest of the level. -/
theorem held_after : held keyId (checkRateLimit redis keyId call).2 +
    (if allows keyId redis call then 1 else 0) ≤ max 0 (levelAt keyId redis call) := by
  have hafter : held keyId (checkRateLimit redis keyId call).2 =
      max 0 (leftAt keyId redis call) := by
    simp only [held, bucket_after]
  rw [hafter, leftAt]
  by_cases h : 1 ≤ levelAt keyId redis call
  · have hpos : 0 ≤ levelAt keyId redis call - 1 := by linarith
    rw [if_pos (allows_iff.mpr h), if_pos h, max_eq_right hpos]
    have hle := le_max_right 0 (levelAt keyId redis call)
    linarith
  · rw [if_neg (fun ha => h (allows_iff.mp ha)), if_neg h, add_zero]

theorem level_le_capacity : max 0 (levelAt keyId redis call) ≤ bucketCapacity := by
  rw [levelAt_eq]
  exact max_le ingestRules.capacity_nonneg (Rules.level_le_capacity _ _)

/-- A call earns what its clock ran ahead of the stored one, and no more. -/
theorem level_le_earned {b : Bucket} (hb : redis (bucketKey keyId) = some b)
    (hfull : FullIfExpired keyId redis call) :
    max 0 (levelAt keyId redis call) ≤ held keyId redis + earned keyId redis call := by
  have hcredit : 0 ≤ max 0 (call.now - b.ts) := le_max_left _ _
  have hheld := le_max_right 0 b.tokens
  have hpos := le_max_left 0 b.tokens
  simp only [held, earned, hb, refillPerSecond_eq, one_mul]
  refine max_le (by linarith) ?_
  unfold levelAt hmget
  rw [hb, refillPerSecond_eq]
  by_cases hlive : call.clock ≤ b.expireAt
  · have hsome : Option.filter (fun b => decide (call.clock ≤ b.expireAt)) (some b) = some b := by
      simp [Option.filter, hlive]
    rw [hsome]
    refine (min_le_right _ _).trans ?_
    simp only [mul_one]
    linarith
  · have hnone : Option.filter (fun b => decide (call.clock ≤ b.expireAt)) (some b) = none := by
      simp [Option.filter, hlive]
    have h := hfull b hb (not_le.mp hlive)
    rw [refillPerSecond_eq, mul_one] at h
    rw [hnone]
    refine (min_le_left _ _).trans ?_
    linarith

theorem rateStep_pays {b : Bucket} (hb : redis (bucketKey keyId) = some b)
    (hfull : FullIfExpired keyId redis call) :
    ∃ redis', rateStep keyId redis call = some redis' ∧
      (∃ b', redis' (bucketKey keyId) = some b') ∧
      held keyId redis' + (if allows keyId redis call then 1 else 0) ≤
        held keyId redis + earned keyId redis call := by
  exact ⟨_, rfl, ⟨_, bucket_after⟩, held_after.trans (level_le_earned hb hfull)⟩

end Bucket

section Run

variable {keyId : String}

/-- From one stored clock on, a run earns its clock's forward moves. -/
theorem totalAlong_earned {redis : Redis} {b : Bucket} (hb : redis (bucketKey keyId) = some b)
    (calls : List RateCall) :
    totalAlong (rateStep keyId) (earned keyId) redis calls =
      refillPerSecond * lengths (forwardMoves (b.ts :: calls.map RateCall.now)) := by
  induction calls generalizing redis b with
  | nil => simp [totalAlong, forwardMoves, lengths]
  | cons call calls ih =>
      have hstep : rateStep keyId redis call = some (checkRateLimit redis keyId call).2 := rfl
      rw [totalAlong_cons_of_step hstep, ih bucket_after, List.map_cons]
      simp only [earned, hb]
      by_cases hlt : b.ts < call.now
      · rw [forwardMoves, if_pos hlt, max_eq_right (sub_nonneg.mpr hlt.le), ← mul_add]
        simp only [lengths, List.map_cons, List.sum_cons]
      · rw [forwardMoves, if_neg hlt, max_eq_left (sub_nonpos.mpr (not_lt.mp hlt)), mul_zero,
          zero_add]

/-- Calls on one key, by any processes in any order, are allowed at most `capacity` plus `refill`
times the span of their clock readings, if no instant is credited twice. -/
theorem allowed_le_capacity_add_refill (keyId : String) (redis : Redis) (calls : List RateCall)
    (honce : CreditsOnce calls) (hexpires : ExpiresFull keyId redis calls) :
    (allowedCount keyId redis calls : ℚ) ≤
      bucketCapacity + refillPerSecond * spread (calls.map RateCall.now) := by
  cases calls with
  | nil => simp [allowedCount, countAlong, spread, bucketCapacity]
  | cons call calls =>
      let redis' := (checkRateLimit redis keyId call).2
      have hstep : rateStep keyId redis call = some redis' := rfl
      have hnext : redis' (bucketKey keyId) =
          some ⟨leftAt keyId redis call, call.now, call.clock + ttlSeconds⟩ := bucket_after
      have hrest : (countAlong (rateStep keyId) (allows keyId) redis' calls : ℚ) ≤
          held keyId redis' + totalAlong (rateStep keyId) (earned keyId) redis' calls :=
        countAlong_le_potential (fun s _ => held_nonneg keyId s)
          (fun s a hs hfull => rateStep_pays hs.choose_spec hfull) ⟨_, hnext⟩ hexpires
      have hfirst : held keyId redis' + (if allows keyId redis call then 1 else 0) ≤
          bucketCapacity := held_after.trans level_le_capacity
      have hspan := lengths_le_spread honce
      rw [totalAlong_earned hnext] at hrest
      rw [List.map_cons] at hspan ⊢
      rw [allowedCount, countAlong_cons_of_step hstep, Nat.cast_add, Nat.cast_ite, Nat.cast_one,
        Nat.cast_zero]
      simp only [refillPerSecond_eq, one_mul] at hrest ⊢
      linarith

/-- Two clocks a second apart share a key: the burst, and one of every two calls after it. -/
def twoClocks : List RateCall :=
  List.replicate 120 ⟨0, 0⟩ ++ [⟨1, 0⟩, ⟨0, 0⟩, ⟨1, 0⟩]

theorem two_clocks_exceed_budget :
    bucketCapacity + refillPerSecond * spread (twoClocks.map RateCall.now) <
      (allowedCount "k" (fun _ => none) twoClocks : ℚ) := by
  decide +kernel

theorem one_clock_within_budget :
    (allowedCount "k" (fun _ => none) [⟨0, 0⟩, ⟨5, 5⟩] : ℚ) ≤
      bucketCapacity + refillPerSecond * spread [0, 5] :=
  allowed_le_capacity_add_refill "k" (fun _ => none) [⟨0, 0⟩, ⟨5, 5⟩]
    (by simp [CreditsOnce, forwardMoves])
    (by simp [ExpiresFull, Along, FullIfExpired, ttlSeconds,
      bucketCapacity, refillPerSecond, refillPerMinute]; norm_num)

end Run

end Crashlens
