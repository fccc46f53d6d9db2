import VaultplaneGateway.TokenBucketLaw
import Mathlib.Data.Rat.Cast.Order
import Mathlib.Algebra.Order.Ring.Rat
import Mathlib.Logic.Function.Basic

/-!
# The per-key rate limiter

Each key id owns a token bucket. The bucket is built by the first check that
finds none, from the rate that call carries, and every later check consumes from
the bucket it finds. Clock readings are exact rationals of the monotonic clock;
`duration_since` saturates at zero.

The rate argument of a check that finds a bucket is never read. What a client is
held to is therefore the rate of the first check for its id: a block of calls
under a changed rate obeys the changed rate for all call times exactly when the
first rate was not larger.
-/
namespace VaultplaneGateway.RateLimiting
open TokenBucketLaw

structure TokenBucket where
  capacity : ℚ
  refillPerSecond : ℚ
  available : ℚ
  lastRefill : ℚ
  deriving DecidableEq, Repr

namespace TokenBucket

def new (rps : UInt32) (now : ℚ) : TokenBucket where
  capacity := rps.toNat
  refillPerSecond := rps.toNat
  available := rps.toNat
  lastRefill := now

def tryConsume (b : TokenBucket) (now : ℚ) : TokenBucket × Bool :=
  let elapsed := max 0 (now - b.lastRefill)
  let available := min (b.available + elapsed * b.refillPerSecond) b.capacity
  let b := { b with available := available, lastRefill := now }
  if 1 ≤ b.available then ({ b with available := b.available - 1 }, true) else (b, false)

/-- The abstract bucket of the window law. -/
def toBucket (b : TokenBucket) : Bucket ℚ :=
  ⟨b.capacity, b.refillPerSecond, b.available, b.lastRefill⟩

theorem tryConsume_offer (b : TokenBucket) (now : ℚ) :
    (b.tryConsume now).1.toBucket = (b.toBucket.offer now).1 ∧
      (b.tryConsume now).2 = (b.toBucket.offer now).2 := by
  unfold tryConsume Bucket.offer
  by_cases h : 1 ≤ min (b.available + max 0 (now - b.lastRefill) * b.refillPerSecond) b.capacity
  · simp [Bucket.refill, toBucket, h]
  · simp [Bucket.refill, toBucket, h]

/-- A bucket built for rate `rps` refills at that rate up to that capacity and
keeps doing so. -/
structure Serves (b : TokenBucket) (rps : UInt32) : Prop where
  capacity_eq : b.capacity = rps.toNat
  refill_eq : b.refillPerSecond = rps.toNat
  sound : b.toBucket.Sound

theorem new_serves (rps : UInt32) (now : ℚ) : (new rps now).Serves rps where
  capacity_eq := rfl
  refill_eq := rfl
  sound := ⟨Nat.cast_nonneg _, Nat.cast_nonneg _, le_rfl⟩

theorem tryConsume_serves {b : TokenBucket} {rps : UInt32} (hb : b.Serves rps) (now : ℚ) :
    (b.tryConsume now).1.Serves rps where
  capacity_eq := by
    have h := congrArg Bucket.capacity (tryConsume_offer b now).1
    rw [Bucket.offer_capacity] at h
    exact h.trans hb.capacity_eq
  refill_eq := by
    have h := congrArg Bucket.rate (tryConsume_offer b now).1
    rw [Bucket.offer_rate] at h
    exact h.trans hb.refill_eq
  sound := by
    rw [(tryConsume_offer b now).1]
    exact Bucket.offer_sound hb.sound now

end TokenBucket

structure RateLimiter where
  buckets : String → Option TokenBucket

namespace RateLimiter

def empty : RateLimiter := ⟨fun _ => none⟩

/-- A new bucket starts full, so its two clock readings at creation may be taken
as one. -/
def check (l : RateLimiter) (keyId : String) (rps : UInt32) (now : ℚ) : RateLimiter × Bool :=
  let bucket := (l.buckets keyId).getD (TokenBucket.new rps now)
  let r := bucket.tryConsume now
  (⟨Function.update l.buckets keyId (some r.1)⟩, r.2)

def forget (l : RateLimiter) (keyId : String) : RateLimiter :=
  ⟨Function.update l.buckets keyId none⟩

@[simp] theorem check_buckets_self (l : RateLimiter) (k : String) (rps : UInt32) (now : ℚ) :
    (l.check k rps now).1.buckets k =
      some (((l.buckets k).getD (TokenBucket.new rps now)).tryConsume now).1 := by
  simp [check]

theorem check_buckets_ne (l : RateLimiter) {k k' : String} (h : k' ≠ k) (rps : UInt32)
    (now : ℚ) : (l.check k rps now).1.buckets k' = l.buckets k' := by
  simp [check, h]

end RateLimiter

/-- One call of `check`. -/
structure Call where
  keyId : String
  rps : UInt32
  now : ℚ
  deriving DecidableEq, Repr

/-- The calls with their answers, each call atomic under the limiter's lock. -/
def answers (l : RateLimiter) : List Call → List (Call × Bool)
  | [] => []
  | c :: cs =>
      let r := l.check c.keyId c.rps c.now
      (c, r.2) :: answers r.1 cs

/-- The same recurrence for the calls of one key and its own bucket. -/
def answersFrom (bucket : Option TokenBucket) : List Call → List (Call × Bool)
  | [] => []
  | c :: cs =>
      let r := (bucket.getD (TokenBucket.new c.rps c.now)).tryConsume c.now
      (c, r.2) :: answersFrom (some r.1) cs

/-- Calls for other keys neither read nor write the bucket of `k`. -/
theorem answers_filter (l : RateLimiter) (k : String) (cs : List Call) :
    (answers l cs).filter (fun e => e.1.keyId == k) =
      answersFrom (l.buckets k) (cs.filter fun c => c.keyId == k) := by
  induction cs generalizing l with
  | nil => rfl
  | cons c cs ih =>
      by_cases hk : c.keyId = k
      · subst hk
        simp only [answers, List.filter_cons, beq_self_eq_true, if_true, answersFrom, ih,
          RateLimiter.check_buckets_self]
        rfl
      · have hb : (c.keyId == k) = false := beq_eq_false_iff_ne.mpr hk
        simp only [answers, List.filter_cons, hb, Bool.false_eq_true, if_false, ih,
          RateLimiter.check_buckets_ne l (Ne.symm hk)]

theorem map_fst_answersFrom (bucket : Option TokenBucket) (cs : List Call) :
    (answersFrom bucket cs).map Prod.fst = cs := by
  induction cs generalizing bucket with
  | nil => rfl
  | cons c cs ih => simp only [answersFrom, List.map_cons, ih]

theorem map_now_answersFrom (bucket : Option TokenBucket) (cs : List Call) :
    ((answersFrom bucket cs).map fun e => e.1.now) = cs.map Call.now := by
  rw [show (fun e : Call × Bool => e.1.now) = Call.now ∘ Prod.fst from rfl, ← List.map_map,
    map_fst_answersFrom]

/-- Once a bucket exists the answers are those of the abstract bucket. -/
theorem answersFrom_some (b : TokenBucket) (cs : List Call) :
    (answersFrom (some b) cs).map Prod.snd = b.toBucket.answers (cs.map Call.now) := by
  induction cs generalizing b with
  | nil => rfl
  | cons c cs ih =>
      have h := TokenBucket.tryConsume_offer b c.now
      simp only [answersFrom, Option.getD_some, List.map_cons, Bucket.answers, ih, h.1, h.2]

def granted (es : List (Call × Bool)) : ℕ := es.countP fun e => e.2

/-- Seconds between the first and the last of a list of instants. -/
def elapsed : List ℚ → ℚ
  | [] => 0
  | t :: ts => (t :: ts).getLast (by simp) - t

/-- Seconds between the first and the last call of a block. -/
def span (es : List (Call × Bool)) : ℚ := elapsed (es.map fun e => e.1.now)

/-- A maximal block of consecutive calls of one key that all carry rate `r`. -/
structure Block (es : List (Call × Bool)) (r : UInt32) (block : List (Call × Bool)) : Prop where
  same : ∀ e ∈ block, e.1.rps = r
  maximal : ∃ pre post, es = pre ++ block ++ post ∧
    (∀ e ∈ pre.getLast?, e.1.rps ≠ r) ∧ (∀ e ∈ post.head?, e.1.rps ≠ r)

def Chronological (cs : List Call) : Prop := cs.Pairwise fun a b => a.now ≤ b.now

/-- The rate the bucket of `k` is built from: that of the first call for `k`. -/
def firstRps (k : String) (cs : List Call) : Option UInt32 :=
  (cs.find? fun c => c.keyId == k).map Call.rps

/-- The answers to the calls of `k`, starting without any bucket. -/
def answersOf (k : String) (cs : List Call) : List (Call × Bool) :=
  (answers RateLimiter.empty cs).filter fun e => e.1.keyId == k

theorem granted_eq_count (es : List (Call × Bool)) : granted es = (es.map Prod.snd).count true := by
  unfold granted
  rw [List.count, List.countP_map]
  congr 1
  funext e
  simp

theorem granted_eq_grants (b : TokenBucket) (cs : List Call) :
    granted (answersFrom (some b) cs) = b.toBucket.grants (cs.map Call.now) := by
  rw [granted_eq_count, answersFrom_some, Bucket.grants]

/-- Any call but the first continues from a bucket built for the first rate. -/
theorem answersFrom_append {b : TokenBucket} {rps : UInt32} (hb : b.Serves rps)
    (cs ds : List Call) : ∃ b' : TokenBucket, b'.Serves rps ∧
      answersFrom (some b) (cs ++ ds) = answersFrom (some b) cs ++ answersFrom (some b') ds := by
  induction cs generalizing b with
  | nil => exact ⟨b, hb, rfl⟩
  | cons c cs ih =>
      obtain ⟨b', hb', h⟩ := ih (TokenBucket.tryConsume_serves hb c.now)
      refine ⟨b', hb', ?_⟩
      simp only [List.cons_append, answersFrom, Option.getD_some, h]

/-- Splitting the answers of a fresh key splits its calls, and the second part
is answered by a bucket built for the key's first rate. -/
theorem answersFrom_none_split {c : Call} {cs : List Call} {pre rest : List (Call × Bool)}
    (h : answersFrom none (c :: cs) = pre ++ rest) :
    ∃ (b : TokenBucket) (ds : List Call), b.Serves c.rps ∧
      rest = answersFrom (some b) ds ∧ ds = (c :: cs).drop pre.length := by
  have hb := TokenBucket.new_serves c.rps c.now
  have hsame : answersFrom none (c :: cs) =
      answersFrom (some (TokenBucket.new c.rps c.now)) (c :: cs) := rfl
  obtain ⟨b', hb', happ⟩ := answersFrom_append hb ((c :: cs).take pre.length)
    ((c :: cs).drop pre.length)
  rw [List.take_append_drop, ← hsame, h] at happ
  refine ⟨b', _, hb', ?_, rfl⟩
  have hlen : pre.length ≤ (c :: cs).length := by
    have := congrArg List.length (map_fst_answersFrom none (c :: cs))
    rw [List.length_map, h, List.length_append] at this
    omega
  apply List.append_inj_right happ
  have := congrArg List.length
    (map_fst_answersFrom (some (TokenBucket.new c.rps c.now)) ((c :: cs).take pre.length))
  rw [List.length_map] at this
  rw [this, List.length_take, Nat.min_eq_left hlen]

theorem span_answersFrom (bucket : Option TokenBucket) (cs : List Call) :
    span (answersFrom bucket cs) = elapsed (cs.map Call.now) := by
  rw [span, map_now_answersFrom]

/-- Every window of calls answered by one bucket obeys the rate the bucket was
built for. -/
theorem granted_window {b : TokenBucket} {rps : UInt32} (hb : b.Serves rps)
    (cs : List Call) (hmono : Chronological cs) :
    (granted (answersFrom (some b) cs) : ℚ) ≤
      rps.toNat + rps.toNat * span (answersFrom (some b) cs) := by
  rw [span_answersFrom, granted_eq_grants]
  cases cs with
  | nil => simp [Bucket.grants, Bucket.answers, elapsed]
  | cons c cs =>
      have hpair : (c.now :: cs.map Call.now).Pairwise (· ≤ ·) := List.pairwise_map.mpr hmono
      have hT : ∀ u ∈ c.now :: cs.map Call.now,
          u ≤ (c.now :: cs.map Call.now).getLast (by simp) :=
        fun u hu => hpair.rel_getLast hu
      have hw := Bucket.grants_le_capacity hb.sound c.now (cs.map Call.now) _ hpair hT
      rw [show b.toBucket.capacity = rps.toNat from hb.capacity_eq,
        show b.toBucket.rate = rps.toNat from hb.refill_eq] at hw
      exact hw

/-- A front part of the answers is answered as if the later calls did not come. -/
theorem answersFrom_take {bucket : Option TokenBucket} {cs : List Call}
    {front back : List (Call × Bool)} (h : answersFrom bucket cs = front ++ back) :
    front = answersFrom bucket (cs.take front.length) := by
  induction front generalizing bucket cs with
  | nil => rfl
  | cons e front ih =>
      cases cs with
      | nil => simp [answersFrom] at h
      | cons c cs =>
          simp only [answersFrom, List.cons_append, List.cons.injEq] at h
          simp only [List.length_cons, List.take_succ_cons, answersFrom, ← h.1, ← ih h.2]

theorem answersOf_eq (k : String) (cs : List Call) :
    answersOf k cs = answersFrom none (cs.filter fun c => c.keyId == k) :=
  answers_filter RateLimiter.empty k cs

theorem firstRps_filter {k : String} {cs : List Call} {R : UInt32}
    (h : firstRps k cs = some R) :
    ∃ c ds, cs.filter (fun c => c.keyId == k) = c :: ds ∧ c.rps = R := by
  unfold firstRps at h
  rw [← List.head?_filter] at h
  cases hf : cs.filter (fun c => c.keyId == k) with
  | nil => simp [hf] at h
  | cons c ds => exact ⟨c, ds, rfl, by simpa [hf] using h⟩

/-- Every block of a key's calls is answered by a bucket built for the rate of
the key's first call, whatever rate the block carries. -/
theorem block_granted_le {k : String} {cs : List Call} (hmono : Chronological cs)
    {R r : UInt32} (hR : firstRps k cs = some R) {block : List (Call × Bool)}
    (hblock : Block (answersOf k cs) r block) :
    (granted block : ℚ) ≤ R.toNat + R.toNat * span block := by
  obtain ⟨pre, post, hsplit, -, -⟩ := hblock.maximal
  obtain ⟨c, ds, hcalls, hc⟩ := firstRps_filter hR
  rw [answersOf_eq, hcalls, List.append_assoc] at hsplit
  obtain ⟨b, es, hb, hrest, hes⟩ := answersFrom_none_split hsplit
  rw [hc] at hb
  have hfront := answersFrom_take hrest.symm
  rw [hfront]
  apply granted_window hb
  apply List.Pairwise.sublist _ hmono
  have hsub : (c :: ds).Sublist cs := hcalls ▸ List.filter_sublist
  rw [hes]
  exact ((List.take_sublist _ _).trans (List.drop_sublist _ _)).trans hsub

theorem elapsed_nonneg {ts : List ℚ} (h : ts.Pairwise (· ≤ ·)) : 0 ≤ elapsed ts := by
  cases ts with
  | nil => exact le_rfl
  | cons t ts => exact sub_nonneg.mpr (h.rel_getLast (by simp))

theorem span_nonneg {k : String} {cs : List Call} (hmono : Chronological cs)
    {r : UInt32} {block : List (Call × Bool)} (hblock : Block (answersOf k cs) r block) :
    0 ≤ span block := by
  obtain ⟨pre, post, hsplit, -, -⟩ := hblock.maximal
  apply elapsed_nonneg
  have hpair : ((answersOf k cs).map fun e => e.1.now).Pairwise (· ≤ ·) := by
    rw [answersOf_eq, map_now_answersFrom]
    exact List.pairwise_map.mpr (hmono.sublist List.filter_sublist)
  rw [hsplit, List.map_append, List.map_append] at hpair
  exact (List.pairwise_append.mp (List.pairwise_append.mp hpair).1).2.1

/-- One call at rate `R`, then a burst of `R` calls at rate `r` a second later:
by then the bucket is full again. -/
def burst (k : String) (R r : UInt32) : List Call :=
  ⟨k, R, 0⟩ :: List.replicate R.toNat ⟨k, r, 1⟩

theorem burst_chronological (k : String) (R r : UInt32) : Chronological (burst k R r) := by
  refine List.pairwise_cons.mpr ⟨?_, ?_⟩
  · intro c hc
    rw [List.eq_of_mem_replicate hc]
    exact zero_le_one
  · exact List.pairwise_replicate.mpr (.inr le_rfl)

/-- The answers to the burst alone. -/
def burstAnswers (k : String) (R r : UInt32) : List (Call × Bool) :=
  answersFrom (some ((TokenBucket.new R 0).tryConsume 0).1) (List.replicate R.toNat ⟨k, r, 1⟩)

theorem answersOf_burst (k : String) (R r : UInt32) :
    answersOf k (burst k R r) =
      [(⟨k, R, 0⟩, ((TokenBucket.new R 0).tryConsume 0).2)] ++ burstAnswers k R r ++ [] := by
  have hkeep : (burst k R r).filter (fun c => c.keyId == k) = burst k R r := by
    apply List.filter_eq_self.mpr
    intro c hc
    rcases List.mem_cons.mp hc with rfl | hc
    · simp
    · rw [List.eq_of_mem_replicate hc]
      simp
  rw [answersOf_eq, hkeep, List.append_nil]
  rfl

theorem rps_of_mem_burstAnswers {k : String} {R r : UInt32} {e : Call × Bool}
    (he : e ∈ burstAnswers k R r) : e.1.rps = r := by
  have hm := List.mem_map_of_mem (f := Prod.fst) he
  rw [burstAnswers, map_fst_answersFrom] at hm
  rw [List.eq_of_mem_replicate hm]

theorem burst_block {k : String} {R r : UInt32} (h : R ≠ r) :
    Block (answersOf k (burst k R r)) r (burstAnswers k R r) where
  same _ he := rps_of_mem_burstAnswers he
  maximal := ⟨_, _, answersOf_burst k R r, by simpa using h, by simp⟩

/-- A second after its creation the bucket has refilled and grants all of it. -/
theorem burst_granted (k : String) (R r : UInt32) : granted (burstAnswers k R r) = R.toNat := by
  have hb := TokenBucket.tryConsume_serves (TokenBucket.new_serves R 0) 0
  have hlast : ((TokenBucket.new R 0).tryConsume 0).1.lastRefill = 0 := by
    have h := congrArg Bucket.last (TokenBucket.tryConsume_offer (TokenBucket.new R 0) 0).1
    rwa [Bucket.offer_last] at h
  unfold burstAnswers
  generalize ((TokenBucket.new R 0).tryConsume 0).1 = b at hb hlast ⊢
  rw [granted_eq_grants, List.map_replicate]
  apply Bucket.grants_replicate
  change (R.toNat : ℚ) ≤ min (b.available + max 0 (1 - b.lastRefill) * b.refillPerSecond) b.capacity
  have hlevel : 0 ≤ b.available := hb.sound.level_nonneg
  rw [hlast, hb.refill_eq, hb.capacity_eq, sub_zero, max_eq_right zero_le_one, one_mul]
  exact le_min (by linarith) le_rfl

theorem burst_span (k : String) (R r : UInt32) : span (burstAnswers k R r) = 0 := by
  rw [burstAnswers, span_answersFrom, List.map_replicate]
  cases R.toNat with
  | zero => rfl
  | succ n =>
      have hlast := List.getLast_mem (l := List.replicate (n + 1) (1 : ℚ)) (by simp)
      exact sub_eq_zero.mpr (List.eq_of_mem_replicate hlast)

/-- A key whose first check carried rate `R` is held to rate `r` by every block
of calls at rate `r`, at whatever times the calls come, exactly when `R ≤ r`. -/
theorem changed_rate_enforced_iff (k : String) (R r : UInt32) :
    (∀ cs, Chronological cs → firstRps k cs = some R →
      ∀ block, Block (answersOf k cs) r block →
        (granted block : ℚ) ≤ r.toNat + r.toNat * span block) ↔ R ≤ r := by
  constructor
  · intro h
    by_contra hlt
    have hne : R ≠ r := fun he => hlt (he ▸ UInt32.le_refl R)
    have hfirst : firstRps k (burst k R r) = some R := by simp [firstRps, burst]
    have hle := h _ (burst_chronological k R r) hfirst _ (burst_block hne)
    rw [burst_granted, burst_span, mul_zero, add_zero, Nat.cast_le] at hle
    exact hlt (UInt32.le_iff_toNat_le.mpr hle)
  · intro hle cs hmono hfirst block hblock
    have hR : (R.toNat : ℚ) ≤ r.toNat := Nat.cast_le.mpr (UInt32.le_iff_toNat_le.mp hle)
    have hspan := span_nonneg hmono hblock
    calc (granted block : ℚ) ≤ R.toNat + R.toNat * span block :=
          block_granted_le hmono hfirst hblock
      _ ≤ r.toNat + r.toNat * span block := by gcongr

/-- The key's rate is lowered from three to one after its first request; a second
later three requests at one instant are still granted. -/
theorem lowered_rate_not_enforced :
    Chronological (burst "vp_k" 3 1) ∧
      Block (answersOf "vp_k" (burst "vp_k" 3 1)) 1 (burstAnswers "vp_k" 3 1) ∧
      ¬ (granted (burstAnswers "vp_k" 3 1) : ℚ) ≤
        (1 : UInt32).toNat + (1 : UInt32).toNat * span (burstAnswers "vp_k" 3 1) :=
  ⟨burst_chronological _ _ _, burst_block (by decide), by decide +kernel⟩

end VaultplaneGateway.RateLimiting
