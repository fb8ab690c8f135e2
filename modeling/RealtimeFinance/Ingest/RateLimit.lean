import Mathlib.Algebra.Order.Field.Basic
import Mathlib.Tactic.Linarith
import Mathlib.Tactic.Positivity
import Mathlib.Tactic.Ring
import RealtimeFinance.Runs
/-!
# RateLimit — `ingest.core.ratelimit`, in exact arithmetic

A token bucket is used at clock readings: by `try_acquire`, or by the bare `_refill` with which `acquire` learns its
deficit.  Tasks meet the bucket only between awaits, so an interleaving of calls is a list of uses at a clock that does
not run back.

Every use goes through `_refill`, and refilling twice is refilling once at the later reading (`refill_refill`).  So two
buckets that refill alike from now on (`RefillsAlike`) are indistinguishable, a use that grants nothing leaves a bucket
that refills alike, and dropping such uses changes no later outcome (`refillsAlike_of_without`).
-/
namespace Ingest

open Runs

variable {K : Type} [LinearOrder K]

/-- A use of the bucket between two awaits, at the clock reading `now`. -/
inductive Use (K : Type)
  | refill (now : K)
  | tryAcquire (tokens now : K)

def Use.now : Use K → K
  | .refill now       => now
  | .tryAcquire _ now => now

/-- A clock that does not run back, from the reading `start` on. -/
def Clocked (start : K) (uses : List (Use K)) : Prop := (start :: uses.map Use.now).Pairwise (· ≤ ·)

theorem clocked_cons {start : K} {u : Use K} {us : List (Use K)} :
    Clocked start (u :: us) ↔ start ≤ u.now ∧ (∀ v ∈ us, start ≤ v.now) ∧ Clocked u.now us := by
  simp [Clocked, List.pairwise_cons, and_assoc]

theorem Clocked.of_append {start : K} {us vs : List (Use K)} (h : Clocked start (us ++ vs)) : Clocked start us := by
  unfold Clocked at h ⊢
  rw [List.map_append] at h
  exact h.sublist ((List.sublist_append_left _ _).cons_cons start)

theorem Clocked.start_le {start : K} {us : List (Use K)} (h : Clocked start us) : ∀ u ∈ us, start ≤ u.now := by
  intro u hu
  exact (List.pairwise_cons.1 h).1 _ (List.mem_map_of_mem hu)

theorem Clocked.after {u : Use K} {us : List (Use K)} (h : Clocked u.now us) {t : K} (ht : ¬ u.now ≤ t) :
    ∀ v ∈ u :: us, t < v.now := by
  intro v hv
  rcases List.mem_cons.1 hv with rfl | hv
  · exact not_le.1 ht
  · exact (not_le.1 ht).trans_le (h.start_le v hv)

variable [Field K]

structure TokenBucket (K : Type) where
  ratePerSec : K
  capacity : K
  tokens : K
  updated : K

/-- `TokenBucket.__init__`, at the clock's reading: a full bucket. -/
def TokenBucket.new (ratePerSec capacity now : K) : TokenBucket K := ⟨ratePerSec, capacity, capacity, now⟩

/-- `_refill`, at the clock's reading. -/
def TokenBucket.refill (b : TokenBucket K) (current : K) : TokenBucket K :=
  { b with updated := current, tokens := min b.capacity (b.tokens + (current - b.updated) * b.ratePerSec) }

def TokenBucket.tryAcquire (b : TokenBucket K) (tokens now : K) : TokenBucket K × Bool :=
  if tokens ≤ (b.refill now).tokens then ({ b.refill now with tokens := (b.refill now).tokens - tokens }, true)
  else (b.refill now, false)

/-- One turn of `acquire`'s loop: no sleep when its try succeeds, and else a second reading and the sleep before the next
turn. -/
def TokenBucket.acquireTurn (b : TokenBucket K) (tokens now later : K) : TokenBucket K × Option K :=
  match b.tryAcquire tokens now with
  | (tried, true)  => (tried, none)
  | (tried, false) =>
    (tried.refill later, some (max ((tokens - (tried.refill later).tokens) / b.ratePerSec) (1 / 1000)))

/-- `_RATES`: the rate and the capacity of a venue's bucket. -/
def rates : List (String × Nat × Nat) := [("binance", 10, 20), ("coinbase", 8, 10), ("kraken", 1, 1)]

/-- `bucket_for`, at the reading of the first call; a venue of no rate is a `KeyError`. -/
def bucketFor (venue : String) (now : K) : Option (TokenBucket K) :=
  (rates.lookup venue).map (fun rate => .new rate.1 rate.2 now)

def Use.tokens : Use K → K
  | .refill _            => 0
  | .tryAcquire tokens _ => tokens

def TokenBucket.use (b : TokenBucket K) : Use K → TokenBucket K
  | .refill now            => b.refill now
  | .tryAcquire tokens now => (b.tryAcquire tokens now).1

/-- The use is a `try_acquire` that returns `True`. -/
def TokenBucket.succeeds (b : TokenBucket K) : Use K → Bool
  | .refill _              => false
  | .tryAcquire tokens now => (b.tryAcquire tokens now).2

/-- The tokens granted in the interval from `t` on, of length `T`. -/
def TokenBucket.granted (b : TokenBucket K) (t T : K) (uses : List (Use K)) : K :=
  ((outputs TokenBucket.use
    (fun b u => if b.succeeds u = true ∧ t ≤ u.now ∧ u.now ≤ t + T then some u.tokens else none) b uses)).sum

/-- The second list is the first without some of its refills and of its failed tries. -/
inductive Without : TokenBucket K → List (Use K) → List (Use K) → Prop
  | nil (b : TokenBucket K) : Without b [] []
  | keep {b : TokenBucket K} {u : Use K} {us vs : List (Use K)} (rest : Without (b.use u) us vs) :
      Without b (u :: us) (u :: vs)
  | drop {b : TokenBucket K} {u : Use K} {us vs : List (Use K)} (fails : b.succeeds u = false)
      (rest : Without (b.use u) us vs) : Without b (u :: us) vs

/-- Tokens between nothing and the capacity. -/
def TokenBucket.InBounds (b : TokenBucket K) : Prop := 0 ≤ b.tokens ∧ b.tokens ≤ b.capacity

/-! ## One use -/

@[simp] theorem refill_ratePerSec (b : TokenBucket K) (t : K) : (b.refill t).ratePerSec = b.ratePerSec := rfl

@[simp] theorem refill_capacity (b : TokenBucket K) (t : K) : (b.refill t).capacity = b.capacity := rfl

@[simp] theorem refill_updated (b : TokenBucket K) (t : K) : (b.refill t).updated = t := rfl

theorem succeeds_tryAcquire (b : TokenBucket K) (tokens now : K) :
    b.succeeds (.tryAcquire tokens now) = true ↔ tokens ≤ (b.refill now).tokens := by
  unfold TokenBucket.succeeds TokenBucket.tryAcquire
  by_cases h : tokens ≤ (b.refill now).tokens
  · simp [h]
  · simp [h]

/-- A use refills, and takes its tokens when it succeeds. -/
theorem use_eq (b : TokenBucket K) (u : Use K) : b.use u =
    if b.succeeds u = true then { b.refill u.now with tokens := (b.refill u.now).tokens - u.tokens }
    else b.refill u.now := by
  cases u with
  | refill now => rfl
  | tryAcquire tokens now =>
    unfold TokenBucket.use TokenBucket.succeeds TokenBucket.tryAcquire
    by_cases h : tokens ≤ (b.refill now).tokens
    · simp [h, Use.now, Use.tokens]
    · simp [h, Use.now]

theorem use_of_fails {b : TokenBucket K} {u : Use K} (h : b.succeeds u = false) : b.use u = b.refill u.now := by
  rw [use_eq, if_neg (by simp [h])]

@[simp] theorem use_ratePerSec (b : TokenBucket K) (u : Use K) : (b.use u).ratePerSec = b.ratePerSec := by
  rw [use_eq]
  split <;> rfl

@[simp] theorem use_capacity (b : TokenBucket K) (u : Use K) : (b.use u).capacity = b.capacity := by
  rw [use_eq]
  split <;> rfl

@[simp] theorem use_updated (b : TokenBucket K) (u : Use K) : (b.use u).updated = u.now := by
  rw [use_eq]
  split <;> rfl

/-- A turn of `acquire` is a try, and a refill after it when the try fails. -/
theorem acquireTurn_eq_uses (b : TokenBucket K) (tokens now later : K) : (b.acquireTurn tokens now later).1 =
    (Use.tryAcquire tokens now ::
      if b.succeeds (.tryAcquire tokens now) = true then [] else [.refill later]).foldl TokenBucket.use b := by
  unfold TokenBucket.acquireTurn TokenBucket.succeeds
  cases h : b.tryAcquire tokens now with
  | mk tried taken => cases taken <;> simp [TokenBucket.use, h]

theorem refill_tokens_le (b : TokenBucket K) {t : K} :
    (b.refill t).tokens ≤ b.tokens + (t - b.updated) * b.ratePerSec := min_le_right _ _

theorem granted_cons (b : TokenBucket K) (t T : K) (u : Use K) (us : List (Use K)) : b.granted t T (u :: us) =
    (if b.succeeds u = true ∧ t ≤ u.now ∧ u.now ≤ t + T then u.tokens else 0) + (b.use u).granted t T us := by
  unfold TokenBucket.granted
  rw [outputs, List.sum_append]
  split <;> simp

/-- After the interval nothing counts. -/
theorem granted_of_after {t T : K} : ∀ {us : List (Use K)} {b : TokenBucket K}, (∀ u ∈ us, t + T < u.now) →
    b.granted t T us = 0
  | [], _, _ => rfl
  | u :: us, b, h => by
    have hu := h u List.mem_cons_self
    rw [granted_cons, if_neg (fun hin => absurd hin.2.2 (not_le.2 hu)),
      granted_of_after (fun v hv => h v (List.mem_cons_of_mem _ hv)), add_zero]

/-- Two buckets that no reading from the first one's last on tells apart. -/
def RefillsAlike (b b' : TokenBucket K) : Prop := ∀ t, b.updated ≤ t → b.refill t = b'.refill t

/-- A use reads a bucket through its refill alone. -/
theorem use_congr {b b' : TokenBucket K} {u : Use K} (h : b.refill u.now = b'.refill u.now) :
    b.use u = b'.use u ∧ b.succeeds u = b'.succeeds u := by
  cases u with
  | refill now => exact ⟨h, rfl⟩
  | tryAcquire tokens now =>
    have htry : b.tryAcquire tokens now = b'.tryAcquire tokens now := by
      unfold TokenBucket.tryAcquire
      rw [show b.refill now = b'.refill now from h]
    exact ⟨congrArg Prod.fst htry, congrArg Prod.snd htry⟩

/-! ## Refills -/

section Ordered

variable [IsStrictOrderedRing K]

/-- **Refilling twice is refilling once**, at the later reading: what the cap cuts off the first time, it cuts off anyway. -/
theorem refill_refill {b : TokenBucket K} (hrate : 0 < b.ratePerSec) (s : K) {t : K} (hst : s ≤ t) :
    (b.refill s).refill t = b.refill t := by
  have hgain : 0 ≤ (t - s) * b.ratePerSec := mul_nonneg (sub_nonneg.2 hst) hrate.le
  have hsplit : (t - b.updated) * b.ratePerSec = (s - b.updated) * b.ratePerSec + (t - s) * b.ratePerSec := by ring
  have htokens : min b.capacity (min b.capacity (b.tokens + (s - b.updated) * b.ratePerSec) + (t - s) * b.ratePerSec) =
      min b.capacity (b.tokens + (t - b.updated) * b.ratePerSec) := by
    rw [hsplit, ← add_assoc]
    rcases le_total b.capacity (b.tokens + (s - b.updated) * b.ratePerSec) with hfull | hroom
    · rw [min_eq_left hfull, min_eq_left (by linarith), min_eq_left (by linarith)]
    · rw [min_eq_right hroom]
  simp only [TokenBucket.refill, htokens]

theorem refill_inBounds {b : TokenBucket K} (hrate : 0 < b.ratePerSec) (h : b.InBounds) {t : K} (ht : b.updated ≤ t) :
    (b.refill t).InBounds := by
  have hgain : 0 ≤ (t - b.updated) * b.ratePerSec := mul_nonneg (sub_nonneg.2 ht) hrate.le
  exact ⟨le_min (h.1.trans h.2) (by linarith [h.1]), min_le_left _ _⟩

/-- **A use keeps the tokens between nothing and the capacity**. -/
theorem use_inBounds {b : TokenBucket K} (hrate : 0 < b.ratePerSec) (h : b.InBounds) {u : Use K} (ht : b.updated ≤ u.now)
    (hu : 0 ≤ u.tokens) : (b.use u).InBounds := by
  have hrefill := refill_inBounds hrate h ht
  rw [use_eq]
  split
  · rename_i hs
    cases u with
    | refill now => cases hs
    | tryAcquire tokens now =>
      have hle := (succeeds_tryAcquire b tokens now).1 hs
      exact ⟨sub_nonneg.2 hle, (sub_le_self _ hu).trans hrefill.2⟩
  · exact hrefill

theorem run_inBounds : ∀ {us : List (Use K)} {b : TokenBucket K}, 0 < b.ratePerSec → b.InBounds → Clocked b.updated us →
    (∀ u ∈ us, 0 ≤ u.tokens) → (us.foldl TokenBucket.use b).InBounds
  | [], _, _, h, _, _ => h
  | u :: us, b, hrate, h, hclock, hu => by
    obtain ⟨hnow, -, hrest⟩ := clocked_cons.1 hclock
    have hused := use_inBounds hrate h hnow (hu u List.mem_cons_self)
    refine run_inBounds (b := b.use u) ?_ hused ?_ (fun v hv => hu v (List.mem_cons_of_mem _ hv))
    · rwa [use_ratePerSec]
    · rwa [use_updated]

/-! ## What an interval grants -/

/-- What a use takes in the interval, with what it leaves, is at most what its refill found. -/
theorem taken_add_tokens_le (b : TokenBucket K) {u : Use K} (hu : 0 ≤ u.tokens) (t T : K) :
    (if b.succeeds u = true ∧ t ≤ u.now ∧ u.now ≤ t + T then u.tokens else 0) + (b.use u).tokens ≤
      (b.refill u.now).tokens := by
  rw [use_eq]
  by_cases hs : b.succeeds u = true
  · simp only [hs, true_and, if_true]
    split <;> linarith
  · simp [hs]

/-- **A bucket grants what it holds and what drips in until the interval ends**, at most. -/
theorem granted_le_tokens {t T : K} : ∀ {us : List (Use K)} {b : TokenBucket K}, 0 < b.ratePerSec → b.InBounds →
    Clocked b.updated us → (∀ u ∈ us, 0 ≤ u.tokens) → b.updated ≤ t + T →
      b.granted t T us ≤ b.tokens + b.ratePerSec * (t + T - b.updated)
  | [], b, hrate, h, _, _, hend => by
    have hdrip : 0 ≤ b.ratePerSec * (t + T - b.updated) := mul_nonneg hrate.le (sub_nonneg.2 hend)
    exact add_nonneg h.1 hdrip
  | u :: us, b, hrate, h, hclock, hu, hend => by
    have hdrip : 0 ≤ b.ratePerSec * (t + T - b.updated) := mul_nonneg hrate.le (sub_nonneg.2 hend)
    obtain ⟨hnow, -, hrest⟩ := clocked_cons.1 hclock
    by_cases hin : u.now ≤ t + T
    · have hused := use_inBounds hrate h hnow (hu u List.mem_cons_self)
      have hlater : (b.use u).granted t T us ≤ (b.use u).tokens + b.ratePerSec * (t + T - u.now) := by
        have hclock' : Clocked (b.use u).updated us := by rwa [use_updated]
        have := granted_le_tokens (t := t) (T := T) (by rwa [use_ratePerSec]) hused hclock'
          (fun v hv => hu v (List.mem_cons_of_mem _ hv)) (by rwa [use_updated])
        rwa [use_ratePerSec, use_updated] at this
      have htaken := taken_add_tokens_le b (hu u List.mem_cons_self) t T
      have hrefill := refill_tokens_le b (t := u.now)
      have hsplit : (u.now - b.updated) * b.ratePerSec + b.ratePerSec * (t + T - u.now) =
          b.ratePerSec * (t + T - b.updated) := by ring
      rw [granted_cons]
      linarith
    · rw [granted_of_after (hrest.after hin)]
      exact add_nonneg h.1 hdrip

/-- **An interval of length `T` is granted a full bucket and what drips in meanwhile**, at most. -/
theorem granted_le {t T : K} (hT : 0 ≤ T) : ∀ {us : List (Use K)} {b : TokenBucket K}, 0 < b.ratePerSec → b.InBounds →
    Clocked b.updated us → (∀ u ∈ us, 0 ≤ u.tokens) → b.granted t T us ≤ b.capacity + b.ratePerSec * T
  | [], b, hrate, h, _, _ => add_nonneg (h.1.trans h.2) (mul_nonneg hrate.le hT)
  | u :: us, b, hrate, h, hclock, hu => by
    obtain ⟨hnow, -, hrest⟩ := clocked_cons.1 hclock
    have hused := use_inBounds hrate h hnow (hu u List.mem_cons_self)
    have hrate' : 0 < (b.use u).ratePerSec := by rwa [use_ratePerSec]
    have hclock' : Clocked (b.use u).updated us := by rwa [use_updated]
    have hu' : ∀ v ∈ us, 0 ≤ v.tokens := fun v hv => hu v (List.mem_cons_of_mem _ hv)
    -- the interval begins at the first use that is not before it
    rcases lt_or_ge u.now t with hbefore | hbegun
    · have hlater := granted_le hT (t := t) hrate' hused hclock' hu'
      rw [use_ratePerSec, use_capacity] at hlater
      rwa [granted_cons, if_neg (fun hin => absurd hin.2.1 (not_le.2 hbefore)), zero_add]
    · by_cases hin : u.now ≤ t + T
      · have hlater : (b.use u).granted t T us ≤ (b.use u).tokens + b.ratePerSec * (t + T - u.now) := by
          have := granted_le_tokens (t := t) (T := T) hrate' hused hclock' hu' (by rwa [use_updated])
          rwa [use_ratePerSec, use_updated] at this
        have htaken := taken_add_tokens_le b (hu u List.mem_cons_self) t T
        have hfull : (b.refill u.now).tokens ≤ b.capacity := (refill_inBounds hrate h hnow).2
        have hdrip : b.ratePerSec * (t + T - u.now) ≤ b.ratePerSec * T :=
          mul_le_mul_of_nonneg_left (by linarith) hrate.le
        rw [granted_cons]
        linarith
      · rw [granted_of_after (hrest.after hin)]
        exact add_nonneg (h.1.trans h.2) (mul_nonneg hrate.le hT)

/-! ## Uses that grant nothing -/

/-- **A use that grants nothing leaves a bucket that refills alike.** -/
theorem refillsAlike_of_fails {b b' : TokenBucket K} (hrate : 0 < b.ratePerSec) (h : RefillsAlike b b') {u : Use K}
    (hnow : b.updated ≤ u.now) (hu : b.succeeds u = false) : RefillsAlike (b.use u) b' := by
  intro t ht
  rw [use_updated] at ht
  rw [use_of_fails hu, refill_refill hrate u.now ht, h t (hnow.trans ht)]

/-- **A run and the run without some uses that granted nothing end in buckets that refill alike.** -/
theorem refillsAlike_of_without {us vs : List (Use K)} {b : TokenBucket K} (hwithout : Without b us vs) :
    ∀ {b' : TokenBucket K}, 0 < b.ratePerSec → Clocked b.updated us → RefillsAlike b b' →
      RefillsAlike (us.foldl TokenBucket.use b) (vs.foldl TokenBucket.use b') := by
  induction hwithout with
  | nil b => exact fun _ _ h => h
  | @keep b u us vs _ ih =>
    intro b' hrate hclock h
    obtain ⟨hnow, -, hrest⟩ := clocked_cons.1 hclock
    have hsame := (use_congr (h u.now hnow)).1
    have halike : RefillsAlike (b.use u) (b'.use u) := fun t _ => by rw [hsame]
    exact ih (by rwa [use_ratePerSec]) (by rwa [use_updated]) halike
  | @drop b u us vs hfails _ ih =>
    intro b' hrate hclock h
    obtain ⟨hnow, -, hrest⟩ := clocked_cons.1 hclock
    exact ih (by rwa [use_ratePerSec]) (by rwa [use_updated]) (refillsAlike_of_fails hrate h hnow hfails)

end Ordered

/-! ## Runs -/

theorem run_capacity (us : List (Use K)) (b : TokenBucket K) : (us.foldl TokenBucket.use b).capacity = b.capacity :=
  run_invariant (I := fun c => c.capacity = b.capacity) (fun c u h => (use_capacity c u).trans h) us rfl

theorem run_updated_le {us post : List (Use K)} {u : Use K} : ∀ {b : TokenBucket K},
    Clocked b.updated (us ++ u :: post) → (us.foldl TokenBucket.use b).updated ≤ u.now := by
  induction us with
  | nil => exact fun h => (clocked_cons.1 h).1
  | cons v us ih =>
    intro b h
    have hrest := (clocked_cons.1 h).2.2
    exact ih (b := b.use v) (by rwa [use_updated])

section Ordered

variable [IsStrictOrderedRing K]

/-- **A turn that fails sleeps**, and long enough: with nothing taken meanwhile, the next try succeeds. -/
theorem acquireTurn_sleep {b b' : TokenBucket K} {tokens now later sleep : K} (hrate : 0 < b.ratePerSec)
    (hfits : tokens ≤ b.capacity) (h : b.acquireTurn tokens now later = (b', some sleep)) :
    0 < sleep ∧ b'.succeeds (.tryAcquire tokens (later + sleep)) = true := by
  unfold TokenBucket.acquireTurn at h
  cases htry : b.tryAcquire tokens now with
  | mk tried taken =>
    have htried : tried.ratePerSec = b.ratePerSec ∧ tried.capacity = b.capacity := by
      have hused : tried = b.use (.tryAcquire tokens now) := by rw [TokenBucket.use, htry]
      rw [hused]
      exact ⟨use_ratePerSec b _, use_capacity b _⟩
    cases taken with
    | true => rw [htry] at h; cases h
    | false =>
      rw [htry] at h
      obtain ⟨rfl, hsleep⟩ := Prod.mk.inj h
      have hsleep : max ((tokens - (tried.refill later).tokens) / b.ratePerSec) (1 / 1000) = sleep := Option.some.inj hsleep
      have hpos : (0 : K) < 1 / 1000 := by positivity
      refine ⟨hpos.trans_le (hsleep ▸ le_max_right _ _), (succeeds_tryAcquire _ _ _).2 ?_⟩
      have hdeficit : tokens - (tried.refill later).tokens ≤ sleep * b.ratePerSec := by
        rw [← div_le_iff₀ hrate, ← hsleep]
        exact le_max_left _ _
      refine le_min (by rwa [refill_capacity, htried.2]) ?_
      rw [refill_updated, refill_ratePerSec, htried.1, add_sub_cancel_left]
      linarith

/-- Every configured bucket drips, and holds a token. -/
theorem bucketFor_rates {venue : String} {now : K} {b : TokenBucket K} (h : bucketFor venue now = some b) :
    0 < b.ratePerSec ∧ 1 ≤ b.capacity := by
  obtain ⟨rate, hrate, rfl⟩ := Option.map_eq_some_iff.1 h
  obtain ⟨front, back, hsplit, -⟩ := List.lookup_eq_some_iff.1 hrate
  have hmem : (venue, rate) ∈ rates := by rw [hsplit]; exact List.mem_append_right _ List.mem_cons_self
  simp only [rates, List.mem_cons, List.not_mem_nil, or_false, Prod.mk.injEq] at hmem
  rcases hmem with ⟨-, rfl⟩ | ⟨-, rfl⟩ | ⟨-, rfl⟩
  · exact ⟨by norm_num [TokenBucket.new], by norm_num [TokenBucket.new]⟩
  · exact ⟨by norm_num [TokenBucket.new], by norm_num [TokenBucket.new]⟩
  · exact ⟨by norm_num [TokenBucket.new], by norm_num [TokenBucket.new]⟩

/-- **A bucket stays between nothing and its capacity, grants no interval more than a full bucket and what drips in
meanwhile, and remembers no use that granted nothing.** -/
theorem tokenBucket_limits {ratePerSec capacity start : K} (hrate : 0 < ratePerSec) (hcapacity : 1 ≤ capacity)
    {us : List (Use K)} (hclock : Clocked start us) (htokens : ∀ u ∈ us, 0 ≤ u.tokens) :
    (∀ pre post, us = pre ++ post →
      0 ≤ (pre.foldl TokenBucket.use (.new ratePerSec capacity start)).tokens ∧
        (pre.foldl TokenBucket.use (.new ratePerSec capacity start)).tokens ≤ capacity) ∧
    (∀ t T, 0 ≤ T → (TokenBucket.new ratePerSec capacity start).granted t T us ≤ capacity + ratePerSec * T) ∧
    (∀ pre u post vs, us = pre ++ u :: post → Without (.new ratePerSec capacity start) pre vs →
      (pre.foldl TokenBucket.use (.new ratePerSec capacity start)).succeeds u =
        (vs.foldl TokenBucket.use (.new ratePerSec capacity start)).succeeds u) := by
  have hnew : (TokenBucket.new ratePerSec capacity start).InBounds := ⟨zero_le_one.trans hcapacity, le_refl capacity⟩
  refine ⟨?_, fun t T hT => granted_le hT hrate hnew hclock htokens, ?_⟩
  · rintro pre post rfl
    have hrun := run_inBounds (b := .new ratePerSec capacity start) hrate hnew hclock.of_append
      (fun u hu => htokens u (List.mem_append_left _ hu))
    exact ⟨hrun.1, hrun.2.trans_eq (run_capacity _ _)⟩
  · rintro pre u post vs rfl hwithout
    have halike := refillsAlike_of_without hwithout hrate hclock.of_append (fun t _ => rfl)
    exact (use_congr (halike u.now (run_updated_le hclock))).2

end Ordered

/-- A bucket of two: both tokens taken at the start, a turn of `acquire` that fails at one half, and a try at one that
succeeds, as it would without that turn. -/
theorem tokenBucket_limits_two :
    ([Use.tryAcquire 2 0, .tryAcquire 1 (1 / 2), .refill (3 / 4)].foldl TokenBucket.use
      (.new (1 : ℚ) 2 0)).tokens ≤ 2 ∧
    (TokenBucket.new (1 : ℚ) 2 0).granted 0 1
      [.tryAcquire 2 0, .tryAcquire 1 (1 / 2), .refill (3 / 4), .tryAcquire 1 1] ≤ 2 + 1 * 1 ∧
    ([Use.tryAcquire 2 0, .tryAcquire 1 (1 / 2), .refill (3 / 4)].foldl TokenBucket.use
        (.new (1 : ℚ) 2 0)).succeeds (.tryAcquire 1 1) =
      ([Use.tryAcquire 2 0].foldl TokenBucket.use (.new (1 : ℚ) 2 0)).succeeds (.tryAcquire 1 1) := by
  have hclock : Clocked (0 : ℚ) [.tryAcquire 2 0, .tryAcquire 1 (1 / 2), .refill (3 / 4), .tryAcquire 1 1] := by
    unfold Clocked
    decide +kernel
  have hrate : (0 : ℚ) < 1 := by norm_num
  have hcapacity : (1 : ℚ) ≤ 2 := by norm_num
  have hlimits := tokenBucket_limits hrate hcapacity hclock (by simp [Use.tokens])
  refine ⟨(hlimits.1 _ [.tryAcquire 1 1] rfl).2, hlimits.2.1 0 1 (by norm_num), hlimits.2.2 _ _ [] _ rfl ?_⟩
  exact .keep (.drop (by decide +kernel) (.drop rfl (.nil _)))

end Ingest
