import Mathlib.Algebra.Order.Archimedean.Basic
import Mathlib.Algebra.Order.Field.Basic
import Mathlib.Tactic.Linarith
import Mathlib.Tactic.Ring
/-!
# Backoff — `backoff_delays`, in exact arithmetic

The generator keeps an undisturbed delay that doubles up to the cap, and yields it times one and the jitter, again up to
the cap.  The cap comes after the jitter, so two clients are told apart only while the smaller of their jittered delays
is below it (`backoffDelay_ne_iff`): once the undisturbed delay is at the cap, every client is given the cap itself
(`backoffDelay_of_cap`), and a long outage gets every client there (`backoffDelay_eventually`).
-/
namespace Ingest

variable {K : Type} [Field K] [LinearOrder K]

/-- A draw of `random.random() * 0.3`. -/
structure Draw (K : Type) [Field K] [LinearOrder K] where
  value : K
  nonneg : 0 ≤ value
  small : value < 3 / 10

/-- One turn of `backoff_delays` at the undisturbed delay: what it yields, and the next undisturbed delay. -/
def backoffTurn (maxBackoffS delay draw : K) : K × K :=
  (min (delay * (1 + draw)) maxBackoffS, min (delay * 2) maxBackoffS)

/-- The undisturbed delay before each attempt. -/
def undisturbed (maxBackoffS : K) : Nat → K
  | 0     => 1
  | n + 1 => (backoffTurn maxBackoffS (undisturbed maxBackoffS n) 0).2

/-- `backoff_delays`: what it yields at each attempt. -/
def backoffDelay (maxBackoffS : K) (jitter : Nat → Draw K) (n : Nat) : K :=
  (backoffTurn maxBackoffS (undisturbed maxBackoffS n) (jitter n).value).1

/-- **Backoff spreads two clients**: the delays are in range, the undisturbed delay doubles until the cap and never
decreases, and different draws give different delays. -/
structure Spreads (maxBackoffS : K) (jitter jitter' : Nat → Draw K) : Prop where
  inRange : ∀ n, (1 ≤ backoffDelay maxBackoffS jitter n ∧ backoffDelay maxBackoffS jitter n ≤ maxBackoffS) ∧
    (1 ≤ backoffDelay maxBackoffS jitter' n ∧ backoffDelay maxBackoffS jitter' n ≤ maxBackoffS)
  doubles : ∀ n, undisturbed maxBackoffS (n + 1) = 2 * undisturbed maxBackoffS n ∨
    (undisturbed maxBackoffS (n + 1) = maxBackoffS ∧ maxBackoffS ≤ 2 * undisturbed maxBackoffS n)
  neverDecreases : ∀ n, undisturbed maxBackoffS n ≤ undisturbed maxBackoffS (n + 1)
  apart : 13 / 10 < maxBackoffS → ∀ n, (jitter n).value ≠ (jitter' n).value →
    backoffDelay maxBackoffS jitter n ≠ backoffDelay maxBackoffS jitter' n

variable {maxBackoffS : K} {jitter jitter' : Nat → Draw K}

/-! ## The undisturbed delay -/

theorem undisturbed_doubles (n : Nat) : undisturbed maxBackoffS (n + 1) = 2 * undisturbed maxBackoffS n ∨
    (undisturbed maxBackoffS (n + 1) = maxBackoffS ∧ maxBackoffS ≤ 2 * undisturbed maxBackoffS n) := by
  change min (undisturbed maxBackoffS n * 2) maxBackoffS = _ ∨ (min (undisturbed maxBackoffS n * 2) maxBackoffS = _ ∧ _)
  rw [mul_comm _ (2 : K)]
  rcases le_total (2 * undisturbed maxBackoffS n) maxBackoffS with hbelow | habove
  · exact Or.inl (min_eq_left hbelow)
  · exact Or.inr ⟨min_eq_right habove, habove⟩

variable [IsStrictOrderedRing K]

theorem undisturbed_bounds (hmax : 1 ≤ maxBackoffS) : ∀ n,
    1 ≤ undisturbed maxBackoffS n ∧ undisturbed maxBackoffS n ≤ maxBackoffS
  | 0     => ⟨le_refl 1, hmax⟩
  | n + 1 => by
    have ih := undisturbed_bounds hmax n
    exact ⟨le_min (by linarith) hmax, min_le_right _ _⟩

/-- **The undisturbed delay is a power of two, or the cap.** -/
theorem undisturbed_eq (hmax : 1 ≤ maxBackoffS) : ∀ n, undisturbed maxBackoffS n = min (2 ^ n) maxBackoffS
  | 0     => by rw [pow_zero, min_eq_left hmax]; rfl
  | n + 1 => by
    change min (undisturbed maxBackoffS n * 2) maxBackoffS = _
    rw [undisturbed_eq hmax n, pow_succ]
    rcases le_total (2 ^ n) maxBackoffS with hbelow | habove
    · rw [min_eq_left hbelow]
    · rw [min_eq_right habove, min_eq_right (by linarith), min_eq_right (by linarith)]

theorem undisturbed_le_succ (hmax : 1 ≤ maxBackoffS) (n : Nat) :
    undisturbed maxBackoffS n ≤ undisturbed maxBackoffS (n + 1) := by
  obtain ⟨hone, hcap⟩ := undisturbed_bounds hmax n
  exact le_min (by linarith) hcap

/-! ## Delays -/

/-- What a turn yields is in range when its undisturbed delay is. -/
theorem backoffTurn_bounds {delay draw : K} (hmax : 1 ≤ maxBackoffS) (hdelay : 1 ≤ delay) (hdraw : 0 ≤ draw) :
    1 ≤ (backoffTurn maxBackoffS delay draw).1 ∧ (backoffTurn maxBackoffS delay draw).1 ≤ maxBackoffS := by
  have hstretched : delay ≤ delay * (1 + draw) := le_mul_of_one_le_right (by linarith) (by linarith)
  exact ⟨le_min (hdelay.trans hstretched) hmax, min_le_right _ _⟩

theorem backoffTurn_next {delay : K} (draw : K) (hmax : 1 ≤ maxBackoffS) (hdelay : 1 ≤ delay) :
    1 ≤ (backoffTurn maxBackoffS delay draw).2 := le_min (by linarith) hmax

/-- **A delay is two to the attempt, jittered, up to the cap.** -/
theorem backoffDelay_eq (hmax : 1 ≤ maxBackoffS) (jitter : Nat → Draw K) (n : Nat) :
    backoffDelay maxBackoffS jitter n = min (2 ^ n * (1 + (jitter n).value)) maxBackoffS := by
  have hdraw := (jitter n).nonneg
  change min (undisturbed maxBackoffS n * (1 + (jitter n).value)) maxBackoffS = _
  rw [undisturbed_eq hmax]
  rcases le_total (2 ^ n) maxBackoffS with hbelow | habove
  · rw [min_eq_left hbelow]
  · have hcap : maxBackoffS ≤ maxBackoffS * (1 + (jitter n).value) := le_mul_of_one_le_right (by linarith) (by linarith)
    have hpower : (2 : K) ^ n ≤ 2 ^ n * (1 + (jitter n).value) := le_mul_of_one_le_right (by positivity) (by linarith)
    rw [min_eq_right habove, min_eq_right hcap, min_eq_right (habove.trans hpower)]

/-- At one attempt, two draws of which the smaller stays below the cap give delays in the order of the draws. -/
theorem jittered_lt {n : Nat} {draw draw' : K} (hlt : draw < draw') (hbelow : 2 ^ n * (1 + draw) < maxBackoffS) :
    min (2 ^ n * (1 + draw)) maxBackoffS < min (2 ^ n * (1 + draw')) maxBackoffS := by
  have hless : 2 ^ n * (1 + draw) < 2 ^ n * (1 + draw') := mul_lt_mul_of_pos_left (by linarith) (by positivity)
  rw [min_eq_left hbelow.le]
  exact lt_min hless hbelow

/-- **Two clients are told apart exactly when their draws differ and the smaller jittered delay is below the cap.** -/
theorem backoffDelay_ne_iff (hmax : 1 ≤ maxBackoffS) (n : Nat) :
    backoffDelay maxBackoffS jitter n ≠ backoffDelay maxBackoffS jitter' n ↔ (jitter n).value ≠ (jitter' n).value ∧
      2 ^ n * (1 + min (jitter n).value (jitter' n).value) < maxBackoffS := by
  rw [backoffDelay_eq hmax, backoffDelay_eq hmax]
  constructor
  · intro hne
    refine ⟨fun hsame => hne (by rw [hsame]), not_le.1 (fun hcap => hne ?_)⟩
    have hcapped : ∀ draw, min (jitter n).value (jitter' n).value ≤ draw →
        min (2 ^ n * (1 + draw)) maxBackoffS = maxBackoffS := by
      intro draw hle
      have hpower : (0 : K) < 2 ^ n := by positivity
      exact min_eq_right (hcap.trans (mul_le_mul_of_nonneg_left (by linarith) hpower.le))
    rw [hcapped _ (min_le_left _ _), hcapped _ (min_le_right _ _)]
  · rintro ⟨hne, hbelow⟩
    rcases lt_or_gt_of_ne hne with hlt | hgt
    · rw [min_eq_left hlt.le] at hbelow
      exact (jittered_lt hlt hbelow).ne
    · rw [min_eq_right hgt.le] at hbelow
      exact (jittered_lt hgt hbelow).ne'

/-- At the cap the jitter is gone. -/
theorem backoffDelay_of_cap (hmax : 1 ≤ maxBackoffS) (jitter : Nat → Draw K) {n : Nat} (hcap : maxBackoffS ≤ 2 ^ n) :
    backoffDelay maxBackoffS jitter n = maxBackoffS := by
  have hpower : (2 : K) ^ n ≤ 2 ^ n * (1 + (jitter n).value) :=
    le_mul_of_one_le_right (by positivity) (by linarith [(jitter n).nonneg])
  rw [backoffDelay_eq hmax, min_eq_right (hcap.trans hpower)]

/-- **In a long outage all clients wait the same**: from some attempt on, the cap. -/
theorem backoffDelay_eventually [Archimedean K] (hmax : 1 ≤ maxBackoffS) :
    ∃ first, ∀ (jitter : Nat → Draw K) n, first ≤ n → backoffDelay maxBackoffS jitter n = maxBackoffS := by
  obtain ⟨first, hfirst⟩ := pow_unbounded_of_one_lt maxBackoffS (one_lt_two : (1 : K) < 2)
  refine ⟨first, fun jitter n hn => backoffDelay_of_cap hmax jitter ?_⟩
  exact hfirst.le.trans (pow_le_pow_right₀ one_le_two hn)

/-- **Backoff spreads two clients exactly when no two different draws meet at the cap.** -/
theorem spreads_iff (hmax : 1 ≤ maxBackoffS) (jitter jitter' : Nat → Draw K) :
    Spreads maxBackoffS jitter jitter' ↔ (13 / 10 < maxBackoffS → ∀ n, (jitter n).value ≠ (jitter' n).value →
      2 ^ n * (1 + min (jitter n).value (jitter' n).value) < maxBackoffS) := by
  constructor
  · intro h hlarge n hne
    exact ((backoffDelay_ne_iff hmax n).1 (h.apart hlarge n hne)).2
  · intro h
    refine ⟨fun n => ?_, undisturbed_doubles, undisturbed_le_succ hmax, fun hlarge n hne => ?_⟩
    · have hone := (undisturbed_bounds hmax n).1
      exact ⟨backoffTurn_bounds hmax hone (jitter n).nonneg, backoffTurn_bounds hmax hone (jitter' n).nonneg⟩
    · exact (backoffDelay_ne_iff hmax n).2 ⟨hne, h hlarge n hne⟩

/-- A draw of nothing, and one of a tenth. -/
def noDraw : Draw ℚ := ⟨0, by norm_num, by norm_num⟩

def tenthDraw : Draw ℚ := ⟨1 / 10, by norm_num, by norm_num⟩

/-- A cap of sixty, and two clients that differ at the first attempt alone: their delays are spread. -/
theorem spreads_iff_first : Spreads 60 (fun n => if n = 0 then tenthDraw else noDraw) (fun _ => noDraw) := by
  refine (spreads_iff (by norm_num) _ _).2 (fun _ n hne => ?_)
  by_cases hn : n = 0
  · norm_num [hn, tenthDraw, noDraw]
  · simp [hn] at hne

/-- At the seventh attempt of a cap of sixty one client draws nothing and the other a tenth, and both wait a minute. -/
theorem not_spreads_cap : ¬ (∀ (maxBackoffS : ℚ) (jitter jitter' : Nat → Draw ℚ), 1 ≤ maxBackoffS →
    Spreads maxBackoffS jitter jitter') := by
  intro h
  have hapart := (h 60 (fun _ => noDraw) (fun _ => tenthDraw) (by norm_num)).apart (by norm_num) 6
    (by norm_num [noDraw, tenthDraw])
  exact hapart (by rw [backoffDelay_of_cap (by norm_num) _ (by norm_num), backoffDelay_of_cap (by norm_num) _ (by norm_num)])

end Ingest
