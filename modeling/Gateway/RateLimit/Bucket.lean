import Gateway.Lib.TokenBucket
import Gateway.Redis.Scripts
import Mathlib.Data.List.Chain

/-!
Requests per minute: the bucket script on one key.

Every instance passes its own clock to the script, and the script stores what it
was passed. The store's clock is another one: it decides only when the key
expires. While the key does not expire, calls of the script are calls of a token
bucket over rational time.
-/

namespace Gateway.RateLimit

open Redis TokenBucket

/-- Requests per minute as a bucket with cost 1 and times in milliseconds. -/
def termsOf (capacity refill : ℚ) : TokenBucket.Terms ℚ := ⟨capacity, refill / 1000, 1⟩

/-- One call: the clock of the store, and the time the caller passes. -/
structure BucketCall where
  clock : Int
  now : ℚ

/-- The calls of one key in turn, and how many of them were allowed. -/
def bucketCalls (key : String) (capacity refill : ℚ) (ttl : Int) :
    Store → List BucketCall → Nat × Store
  | s, [] => (0, s)
  | s, call :: calls =>
      let (result, s) := tokenBucket (command call.clock) key capacity refill call.now 1 ttl s
      let (later, s) := bucketCalls key capacity refill ttl s calls
      ((if result.head? = some 1 then 1 else 0) + later, s)

/-- No call finds the key expired since the call before it. -/
def Unexpired (ttl : Int) (calls : List BucketCall) : Prop :=
  calls.IsChain fun call next => next.clock < call.clock + ttl * 1000

instance (ttl : Int) (calls : List BucketCall) : Decidable (Unexpired ttl calls) :=
  inferInstanceAs (Decidable (calls.IsChain _))

/-- The tokens that are stored under a key. -/
def storedTokens (entry : Option Entry) : Option ℚ :=
  (entry.bind fun e => e.value.asHash.bind (List.lookup "tokens")).map fun d => d.toNumber.toRat

section Refinement

def bucketFields (b : Bucket ℚ) : List (String × Datum) :=
  [("tokens", .number (.finite b.tokens)), ("ts", .number (.finite b.ts))]

/-- The bucket a script finds under the key at a time of the store. -/
def Holds (clock : Int) (entry : Option Entry) : Option (Bucket ℚ) → Prop
  | none => live clock entry = none
  | some b => ∃ expiresAt, live clock entry = some ⟨.hash (bucketFields b), expiresAt⟩

variable {clock : Int} {s : Store} {key : String} {bucket : Option (Bucket ℚ)}
  {capacity : ℚ}

theorem Holds.read (h : Holds clock (s key) bucket) :
    Op.run clock (live clock (s key)) (.hmget ["tokens", "ts"]) =
      (.values [bucket.map fun b => .number (.finite b.tokens),
        bucket.map fun b => .number (.finite b.ts)], live clock (s key)) := by
  cases bucket with
  | none =>
      rw [Holds] at h
      rw [h]
      rfl
  | some b =>
      obtain ⟨expiresAt, found⟩ := h
      rw [found]
      rfl

theorem Holds.write (h : Holds clock (s key) bucket) (next : Bucket ℚ) :
    ∃ added e,
      Op.run clock (live clock (s key)) (.hset (bucketFields next)) = (.int added, some e) ∧
      e.value = .hash (bucketFields next) ∧ live clock (some e) = some e := by
  cases bucket with
  | none =>
      rw [Holds] at h
      rw [h]
      exact ⟨_, ⟨.hash (bucketFields next), none⟩, rfl, rfl, rfl⟩
  | some b =>
      obtain ⟨expiresAt, found⟩ := h
      have alive : live clock (some ⟨.hash (bucketFields next), expiresAt⟩) =
          some ⟨.hash (bucketFields next), expiresAt⟩ :=
        live_of_found found
      rw [found]
      exact ⟨_, ⟨.hash (bucketFields next), expiresAt⟩, rfl, rfl, alive⟩

/-- Writing the bucket and its expiry leaves exactly them under the key. -/
theorem Holds.store (h : Holds clock (s key) bucket) (next : Bucket ℚ) (ttl : Int) :
    (command clock (.on key (.expire ttl)) (command clock (.on key (.hset (bucketFields next)))
      (Function.update s key (live clock (s key)))).2).2 =
        Function.update s key
          (some ⟨.hash (bucketFields next), some (clock + ttl * 1000)⟩) := by
  obtain ⟨added, e, written, value, alive⟩ := h.write next
  simp only [command_on, Function.update_self, live_live, Function.update_idem, written, alive]
  rw [← value]
  rfl

/-- The script is a call of the bucket. -/
theorem tokenBucket_refines (refill : ℚ) (h : Holds clock (s key) bucket)
    (positive : 0 < capacity) (now : ℚ) (ttl : Int) :
    ∃ remaining retry, tokenBucket (command clock) key capacity refill now 1 ttl s =
      ([if (take (termsOf capacity refill) now bucket).1 then 1 else 0, remaining, retry],
        Function.update s key (some ⟨.hash (bucketFields (take (termsOf capacity refill) now
          bucket).2), some (clock + ttl * 1000)⟩)) := by
  have tokens : min capacity (bucket.elim capacity Bucket.tokens +
      max 0 (now - bucket.elim now Bucket.ts) / 1000 * refill) =
        refilled (termsOf capacity refill) now bucket := by
    cases bucket with
    | none => simp [refilled, termsOf]
    | some b => simp [refilled, termsOf]; ring_nf
  have read : command clock (.on key (.hmget ["tokens", "ts"])) s =
      (.values [bucket.map fun b => .number (.finite b.tokens),
        bucket.map fun b => .number (.finite b.ts)],
          Function.update s key (live clock (s key))) := by
    rw [command_on, h.read]
  have read_tokens : ((Reply.item 0 (.values [bucket.map fun b => Datum.number (.finite b.tokens),
      bucket.map fun b => Datum.number (.finite b.ts)])).elim capacity
        fun d => d.toNumber.toRat) = bucket.elim capacity Bucket.tokens := by
    cases bucket <;> rfl
  have read_ts : ((Reply.item 1 (.values [bucket.map fun b => Datum.number (.finite b.tokens),
      bucket.map fun b => Datum.number (.finite b.ts)])).elim now
        fun d => d.toNumber.toRat) = bucket.elim now Bucket.ts := by
    cases bucket <;> rfl
  simp only [tokenBucket, if_neg (not_le.mpr positive), read, read_tokens, read_ts, tokens]
  by_cases covered : 1 ≤ refilled (termsOf capacity refill) now bucket
  · rw [@take_of_le _ _ _ (termsOf capacity refill) bucket now covered]
    simp only [if_pos covered]
    refine ⟨_, _, Prod.ext rfl ?_⟩
    exact h.store ⟨_, now⟩ ttl
  · rw [@take_of_lt _ _ _ (termsOf capacity refill) bucket now (not_le.mp covered)]
    simp only [if_neg covered]
    refine ⟨_, _, Prod.ext rfl ?_⟩
    exact h.store ⟨_, now⟩ ttl

/-- Calls of one key are calls of the bucket, as long as the key does not expire. -/
theorem bucketCalls_refines (refill : ℚ) (positive : 0 < capacity) {ttl : Int}
    {calls : List BucketCall} (unexpired : Unexpired ttl calls)
    (h : ∀ call ∈ calls.head?, Holds call.clock (s key) bucket) :
    (bucketCalls key capacity refill ttl s calls).1 =
        (run (termsOf capacity refill) bucket (calls.map BucketCall.now)).1 ∧
      (calls ≠ [] → ∃ b expiresAt,
        (run (termsOf capacity refill) bucket (calls.map BucketCall.now)).2 = some b ∧
        (bucketCalls key capacity refill ttl s calls).2 key =
          some ⟨.hash (bucketFields b), expiresAt⟩) := by
  induction calls generalizing s bucket with
  | nil => exact ⟨rfl, fun nonempty => absurd rfl nonempty⟩
  | cons call calls ih =>
      obtain ⟨remaining, retry, step⟩ :=
        tokenBucket_refines refill (h call rfl) positive call.now ttl
      let after := Function.update s key (some ⟨.hash (bucketFields (take (termsOf capacity refill)
        call.now bucket).2), some (call.clock + ttl * 1000)⟩)
      have holds : ∀ next ∈ calls.head?, Holds next.clock (after key)
          (some (take (termsOf capacity refill) call.now bucket).2) := by
        intro next first
        have soon : next.clock < call.clock + ttl * 1000 := unexpired.rel_head? first
        exact ⟨_, by simpa only [after, Function.update_self] using live_of_lt soon⟩
      obtain ⟨count, last⟩ := ih unexpired.tail holds
      have counted : (bucketCalls key capacity refill ttl s (call :: calls)).1 =
          (if (take (termsOf capacity refill) call.now bucket).1 then 1 else 0) +
            (bucketCalls key capacity refill ttl after calls).1 := by
        simp only [bucketCalls, step, List.head?_cons, after]
        cases (take (termsOf capacity refill) call.now bucket).1 <;> simp
      have left : (bucketCalls key capacity refill ttl s (call :: calls)).2 =
          (bucketCalls key capacity refill ttl after calls).2 := by
        simp only [bucketCalls, step, after]
      refine ⟨by rw [counted, count]; rfl, fun _ => ?_⟩
      rw [left]
      cases calls with
      | nil =>
          exact ⟨(take (termsOf capacity refill) call.now bucket).2,
            some (call.clock + ttl * 1000), rfl,
            by simp only [bucketCalls, after, Function.update_self]⟩
      | cons next calls => exact last (List.cons_ne_nil next calls)

end Refinement

theorem termsOf_cost (capacity refill : ℚ) : (termsOf capacity refill).cost = 1 := rfl

/-- A bucket is a genuine ceiling in every run in which no caller passes an earlier
time than the caller before it; its tokens stay in range in every run. -/
theorem bucket_ceiling (key : String) {capacity refill : ℚ} (positive : 0 < capacity)
    (nonneg : 0 ≤ refill) (ttl : Int) {s : Store} (fresh : s key = none) {t₀ t₁ : ℚ}
    (ordered : t₀ ≤ t₁) {calls : List BucketCall} (unexpired : Unexpired ttl calls)
    (span : ∀ call ∈ calls, t₀ ≤ call.now ∧ call.now ≤ t₁) :
    (∀ tokens ∈ storedTokens ((bucketCalls key capacity refill ttl s calls).2 key),
      0 ≤ tokens ∧ tokens ≤ capacity) ∧
    ((calls.map BucketCall.now).IsChain (· ≤ ·) →
      ((bucketCalls key capacity refill ttl s calls).1 : ℚ) ≤
        capacity + refill * (t₁ - t₀) / 1000) := by
  have start : ∀ call ∈ calls.head?, Holds call.clock (s key) none := by
    intro call _
    rw [Holds, fresh]
    rfl
  have rate : 0 ≤ (termsOf capacity refill).rate := div_nonneg nonneg (by norm_num)
  have cost : 0 ≤ (termsOf capacity refill).cost := zero_le_one
  obtain ⟨count, last⟩ := bucketCalls_refines refill positive unexpired start
  constructor
  · intro tokens stored
    cases calls with
    | nil =>
        simp only [bucketCalls, fresh] at stored
        cases stored
    | cons call calls =>
        obtain ⟨b, expiresAt, final, entry⟩ := last (List.cons_ne_nil call calls)
        have within := run_within positive.le rate cost (by simp) _ b final
        have held : tokens = b.tokens := by
          rw [entry] at stored
          exact (Option.some.inj stored).symm
        rw [held]
        exact ⟨within.nonneg, within.le_capacity⟩
  · intro sorted
    have times : ∀ t ∈ calls.map BucketCall.now, t₀ ≤ t ∧ t ≤ t₁ := List.forall_mem_map.mpr span
    have ceiling := run_ceiling positive.le rate cost times ordered sorted
    rw [← count, termsOf_cost, mul_one] at ceiling
    calc _ ≤ capacity + refill / 1000 * (t₁ - t₀) := ceiling
      _ = _ := by ring

/-- Two callers whose clocks differ by a second, one after the other. -/
def skewed : List BucketCall := [⟨0, 1000⟩, ⟨1, 0⟩, ⟨2, 1000⟩, ⟨3, 0⟩, ⟨4, 1000⟩]

theorem bucket_ceiling_steady :
    (bucketCalls "k" 1 1 120 Store.empty [⟨0, 0⟩, ⟨1, 500⟩, ⟨2, 1000⟩]).1 = 2 ∧
      ((bucketCalls "k" 1 1 120 Store.empty [⟨0, 0⟩, ⟨1, 500⟩, ⟨2, 1000⟩]).1 : ℚ) ≤
        1 + 1 * (1000 - 0) / 1000 :=
  ⟨by decide +kernel,
    (bucket_ceiling "k" (by norm_num) (by norm_num) 120 rfl (by norm_num) (by decide)
      (by decide +kernel)).2 (by decide +kernel)⟩

/-- Each earlier time opens the second before it again. -/
theorem bucket_ceiling_skewed :
    Unexpired 120 skewed ∧ (∀ call ∈ skewed, (0 : ℚ) ≤ call.now ∧ call.now ≤ 1000) ∧
      ¬((bucketCalls "k" 1 1 120 Store.empty skewed).1 : ℚ) ≤ 1 + 1 * (1000 - 0) / 1000 := by
  refine ⟨by decide, by decide +kernel, ?_⟩
  have allowed : (bucketCalls "k" 1 1 120 Store.empty skewed).1 = 3 := by decide +kernel
  rw [allowed]
  norm_num

end Gateway.RateLimit
