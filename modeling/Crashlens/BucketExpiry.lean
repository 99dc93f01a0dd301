import Crashlens.Library.Mealy
import Crashlens.Library.TokenBucket
import Crashlens.RateLimit

/-!
# The expiry of idle buckets

Redis drops the hash of a key `TTL_SECONDS` after its last call, and the next call starts from a
full bucket. Without the `EXPIRE` the hash would stay, and by then it would have refilled. A lasting
store and the store that expires are one and the same up to the time Redis adds to each hash, as
long as no bucket is in debt, and no call ever leaves one in debt.
-/

namespace Crashlens.BucketExpiry

open TokenBucket Mealy

/-! ## The script without `EXPIRE` -/

section Script

abbrev LastingRedis := String → Option (Stored ℚ)

/-- `_TOKEN_BUCKET_LUA` without its `EXPIRE`. -/
def lastingBucketLua (redis : LastingRedis) (key : String)
    (capacity refill now requested : ℚ) : (ℕ × ℚ) × LastingRedis :=
  let taken := takeTokens ((redis key).map Stored.tokens) ((redis key).map Stored.ts) capacity
    refill now requested
  (taken, Function.update redis key (some ⟨taken.2, now⟩))

def checkLastingRateLimit (redis : LastingRedis) (keyId : String) (now : ℚ) :
    RateLimitDecision × LastingRedis :=
  let outcome := lastingBucketLua redis (bucketKey keyId) bucketCapacity refillPerSecond now 1
  (rateLimitDecision outcome.1, outcome.2)

variable (r : Rules ℚ) (now : ℚ)

theorem lastingBucketLua_eq (redis : LastingRedis) (key : String) :
    lastingBucketLua redis key r.capacity r.refill now r.cost =
      ((if r.cost ≤ r.level (redis key) now then 1 else 0, r.left (redis key) now),
        Function.update redis key (some ⟨r.left (redis key) now, now⟩)) := by
  rw [Rules.left, Rules.level_eq_getD]
  simp only [lastingBucketLua, takeTokens, clamp_eq_max]

end Script

/-! ## What expires was full -/

section Refinement

variable {r : Rules ℚ} {ttl : ℚ}

/-- The store as Redis keeps it, each hash with the time it is dropped. -/
def withExpiry (ttl : ℚ) (redis : LastingRedis) : Redis := fun key =>
  (redis key).map fun b => ⟨b.tokens, b.ts, b.ts + ttl⟩

/-- No bucket is in debt, and none holds more than its capacity. -/
def AllSound (r : Rules ℚ) (redis : LastingRedis) : Prop := ∀ key, ∀ b ∈ redis key, r.Sound b

variable {redis : LastingRedis} {now : ℚ}

theorem withExpiry_update (key : String) (tokens : ℚ) :
    withExpiry ttl (Function.update redis key (some ⟨tokens, now⟩)) =
      Function.update (withExpiry ttl redis) key (some ⟨tokens, now, now + ttl⟩) := by
  funext other
  exact Function.apply_update (fun _ => Option.map fun b => Bucket.mk b.tokens b.ts (b.ts + ttl))
    redis key (some ⟨tokens, now⟩) other

/-- A hash that is still there is the lasting one, and a dropped one had refilled. -/
theorem level_withExpiry (httl : r.capacity ≤ ttl * r.refill) (h : AllSound r redis)
    (key : String) :
    r.level ((hmget (withExpiry ttl redis) now key).map Bucket.stored) now =
      r.level (redis key) now := by
  cases hb : redis key with
  | none => simp [hmget, withExpiry, hb]
  | some b =>
      simp only [hmget, withExpiry, hb, Option.map_some, Option.filter_some]
      by_cases hlive : now ≤ b.ts + ttl
      · rw [if_pos (decide_eq_true hlive)]
        rfl
      · have hfull := Rules.level_of_idle (h key b hb) httl (le_of_not_ge hlive)
        rw [if_neg (by simpa using hlive), hfull]
        rfl

theorem tokenBucketLua_withExpiry (httl : r.capacity ≤ ttl * r.refill) (h : AllSound r redis)
    (key : String) :
    tokenBucketLua (withExpiry ttl redis) now key r.capacity r.refill now r.cost ttl =
      ((lastingBucketLua redis key r.capacity r.refill now r.cost).1,
        withExpiry ttl (lastingBucketLua redis key r.capacity r.refill now r.cost).2) := by
  have hlevel : r.level ((hmget (withExpiry ttl redis) now key).map Bucket.stored) now =
      r.level (redis key) now := level_withExpiry httl h key
  rw [tokenBucketLua_stored, lastingBucketLua_eq, withExpiry_update]
  simp only [Rules.left, hlevel]

theorem AllSound.update (h : AllSound r redis) (key : String) :
    AllSound r (Function.update redis key (some ⟨r.left (redis key) now, now⟩)) := by
  rw [AllSound, Function.forall_update_iff redis fun _ state => ∀ b ∈ state, r.Sound b]
  constructor
  · rintro b ⟨⟩
    exact Rules.left_sound (h key) now
  · exact fun other _ => h other

end Refinement

/-! ## The buckets of ingest -/

section Ingest

/-- The formula for `TTL_SECONDS` leaves a bucket the time to refill. -/
theorem capacity_le_ttlSeconds_mul : ingestRules.capacity ≤ ttlSeconds * ingestRules.refill :=
  le_floor_add_mul (by norm_num [refillPerSecond_eq]) (by norm_num)

/-- A call `(keyId, now)`, with the Redis server on the caller's clock. -/
def limit (redis : Redis) (call : String × ℚ) : RateLimitDecision × Redis :=
  checkRateLimit redis call.1 ⟨call.2, call.2⟩

def limitLasting (redis : LastingRedis) (call : String × ℚ) : RateLimitDecision × LastingRedis :=
  checkLastingRateLimit redis call.1 call.2

theorem limitLasting_after (redis : LastingRedis) (call : String × ℚ) :
    (limitLasting redis call).2 = Function.update redis (bucketKey call.1)
      (some ⟨ingestRules.left (redis (bucketKey call.1)) call.2, call.2⟩) :=
  congrArg Prod.snd (lastingBucketLua_eq ingestRules call.2 redis (bucketKey call.1))

theorem limit_withExpiry {redis : LastingRedis} (h : AllSound ingestRules redis)
    (call : String × ℚ) : limit (withExpiry ttlSeconds redis) call =
      ((limitLasting redis call).1, withExpiry ttlSeconds (limitLasting redis call).2) := by
  have hscript : tokenBucketLua (withExpiry ttlSeconds redis) call.2 (bucketKey call.1)
        bucketCapacity refillPerSecond call.2 1 ttlSeconds =
      ((lastingBucketLua redis (bucketKey call.1) bucketCapacity refillPerSecond call.2 1).1,
        withExpiry ttlSeconds
          (lastingBucketLua redis (bucketKey call.1) bucketCapacity refillPerSecond call.2 1).2) :=
    tokenBucketLua_withExpiry capacity_le_ttlSeconds_mul h (bucketKey call.1)
  exact congrArg (Prod.map rateLimitDecision id) hscript

theorem limitLasting_sound (redis : LastingRedis) (call : String × ℚ)
    (h : AllSound ingestRules redis) : AllSound ingestRules (limitLasting redis call).2 := by
  rw [limitLasting_after]
  exact h.update (bucketKey call.1)

theorem trace_withExpiry {redis : LastingRedis} (h : AllSound ingestRules redis)
    (calls : List (String × ℚ)) : trace limit (withExpiry ttlSeconds redis) calls =
      (trace limitLasting redis calls).map (Prod.map id (withExpiry ttlSeconds)) := by
  exact trace_refinement limitLasting_sound (fun _ call hs => limit_withExpiry hs call) h calls

/-- Calls on any keys, at any times, get the same decisions whether or not idle buckets expire, and
no bucket ever holds less than nothing or more than the capacity. -/
theorem bucket_expiry_unobservable (calls : List (String × ℚ)) :
    (trace limit (fun _ => none) calls).map Prod.fst =
        (trace limitLasting (fun _ => none) calls).map Prod.fst ∧
      (∀ r ∈ trace limit (fun _ => none) calls, ∀ key, ∀ b ∈ r.2 key,
        0 ≤ b.tokens ∧ b.tokens ≤ bucketCapacity) ∧
      ∀ r ∈ trace limitLasting (fun _ => none) calls, ∀ key, ∀ b ∈ r.2 key,
        0 ≤ b.tokens ∧ b.tokens ≤ bucketCapacity := by
  have hempty : AllSound ingestRules fun _ => none := fun _ b hb => nomatch hb
  have hrun : trace limit (fun _ => none) calls =
      (trace limitLasting (fun _ => none) calls).map (Prod.map id (withExpiry ttlSeconds)) :=
    trace_withExpiry hempty calls
  have hsound : ∀ r ∈ trace limitLasting (fun _ => none) calls, AllSound ingestRules r.2 :=
    trace_invariant limitLasting_sound hempty calls
  refine ⟨?_, ?_, hsound⟩
  · rw [hrun, List.map_map]
    rfl
  · intro r hr key b hb
    rw [hrun] at hr
    obtain ⟨lasting, hlasting, rfl⟩ := List.mem_map.mp hr
    obtain ⟨stored, hstored, rfl⟩ := Option.mem_map.mp hb
    exact hsound lasting hlasting key stored hstored

end Ingest

end Crashlens.BucketExpiry
