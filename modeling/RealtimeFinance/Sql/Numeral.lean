import Mathlib.Algebra.Order.Field.Basic
import Mathlib.Data.List.TakeDrop
import Mathlib.Data.List.TakeWhile
import Mathlib.Data.Rat.Cast.Order
import Mathlib.Tactic.FieldSimp
import Mathlib.Tactic.Linarith
import RealtimeFinance.Sql.Decimal
/-!
# Numeral — the texts that cast

A numeral is a sign, digits with a point among them, and an exponent; a whole number is a sign and digits.  These are the
texts that `BigDecimal` and `parseLong` read (`bigDecimal_eq_some_iff`, `wholeNumber_eq_some_iff`), and a cast asks no more of
them than that the value be in range (`tryCastDecimal_isSome_iff`, `castBigint_casts_iff`).
-/
namespace Sql

def AllDigits (ds : List Char) : Prop := ∀ d ∈ ds, isDigit d = true

inductive Sign : List Char → Int → Prop
  | absent : Sign [] 1
  | plus : Sign ['+'] 1
  | minus : Sign ['-'] (-1)

/-- The characters are a sign and the digits of `n`. -/
def WholeNumeral (cs : List Char) (n : Int) : Prop :=
  ∃ sign s ds, cs = sign ++ ds ∧ Sign sign s ∧ AllDigits ds ∧ ds ≠ [] ∧ n = s * digitsValue ds

inductive Point : List Char → List Char → Prop
  | absent : Point [] []
  | before {ds : List Char} (h : AllDigits ds) : Point ('.' :: ds) ds

inductive Exponent : List Char → Int → Prop
  | absent : Exponent [] 0
  | lower {cs : List Char} {e : Int} (h : WholeNumeral cs e) : Exponent ('e' :: cs) e
  | upper {cs : List Char} {e : Int} (h : WholeNumeral cs e) : Exponent ('E' :: cs) e

/-- **The text is the numeral of `u / 10 ^ scale`.** -/
def Numeral (text : String) (u scale : Int) : Prop :=
  ∃ sign s whole point fraction exp e, text.toList = sign ++ (whole ++ (point ++ exp)) ∧ Sign sign s ∧ AllDigits whole ∧
    Point point fraction ∧ Exponent exp e ∧ whole ++ fraction ≠ [] ∧ IsInt e ∧ IsInt (fraction.length - e) ∧
    u = s * digitsValue (whole ++ fraction) ∧ scale = fraction.length - e

/-! ## Scanning -/

theorem span_digits {ds rest : List Char} (hds : AllDigits ds) (hrest : ∀ c ∈ rest.head?, isDigit c = false) :
    (ds ++ rest).span isDigit = (ds, rest) := by
  have hstop : rest.takeWhile isDigit = [] ∧ rest.dropWhile isDigit = rest := by
    cases rest with
    | nil => exact ⟨rfl, rfl⟩
    | cons c cs =>
      have hc := hrest c rfl
      exact ⟨List.takeWhile_cons_of_neg (by rw [hc]; decide), List.dropWhile_cons_of_neg (by rw [hc]; decide)⟩
  rw [List.span_eq_takeWhile_dropWhile, List.takeWhile_append_of_pos hds, List.dropWhile_append_of_pos hds, hstop.1, hstop.2,
    List.append_nil]

theorem span_spec (cs : List Char) : cs = (cs.span isDigit).1 ++ (cs.span isDigit).2 ∧ AllDigits (cs.span isDigit).1 := by
  rw [List.span_eq_takeWhile_dropWhile]
  exact ⟨List.takeWhile_append_dropWhile.symm, fun d hd => List.mem_takeWhile_imp hd⟩

theorem signed_append {sign rest : List Char} {s : Int} (h : Sign sign s) (hrest : ∀ c ∈ rest.head?, c ≠ '-' ∧ c ≠ '+') :
    signed (sign ++ rest) = (s, rest) := by
  cases h with
  | plus | minus => rfl
  | absent =>
    rw [List.nil_append]
    unfold signed
    split
    · exact absurd rfl (hrest _ rfl).1
    · exact absurd rfl (hrest _ rfl).2
    · rfl

theorem signed_spec (cs : List Char) : ∃ sign, cs = sign ++ (signed cs).2 ∧ Sign sign (signed cs).1 := by
  unfold signed
  split
  · exact ⟨['-'], rfl, .minus⟩
  · exact ⟨['+'], rfl, .plus⟩
  · exact ⟨[], rfl, .absent⟩

theorem not_sign_of_isDigit {c : Char} (h : isDigit c = true) : c ≠ '-' ∧ c ≠ '+' := by
  constructor
  · rintro rfl
    cases h
  · rintro rfl
    cases h

theorem head_of_digits {ds rest : List Char} {p : Char → Prop} (hds : AllDigits ds) (hp : ∀ c, isDigit c = true → p c)
    (hrest : ds = [] → ∀ c ∈ rest.head?, p c) : ∀ c ∈ (ds ++ rest).head?, p c := by
  cases ds with
  | nil => exact hrest rfl
  | cons d ds =>
    intro c hc
    cases hc
    exact hp d (hds d List.mem_cons_self)

/-! ## The two readers -/

theorem wholeNumber_eq_some_iff {cs : List Char} {n : Int} : wholeNumber cs = some n ↔ WholeNumeral cs n := by
  constructor
  · intro h
    unfold wholeNumber at h
    simp only at h
    split at h
    · cases h
    · rename_i hdigits
      rw [Bool.or_eq_true, not_or, Bool.not_eq_true, Bool.not_eq_true, Bool.not_eq_false', List.all_eq_true,
        List.isEmpty_eq_false_iff] at hdigits
      obtain ⟨sign, hcs, hsign⟩ := signed_spec cs
      exact ⟨sign, _, _, hcs, hsign, hdigits.2, hdigits.1, (Option.some.inj h).symm⟩
  · rintro ⟨sign, s, ds, rfl, hsign, hds, hne, rfl⟩
    have hhead : ∀ c ∈ ds.head?, c ≠ '-' ∧ c ≠ '+' := fun c hc => not_sign_of_isDigit (hds c (List.mem_of_mem_head? hc))
    unfold wholeNumber
    rw [signed_append hsign hhead]
    simp only
    rw [if_neg]
    rw [Bool.or_eq_true, not_or, Bool.not_eq_true, Bool.not_eq_true, Bool.not_eq_false', List.all_eq_true,
      List.isEmpty_eq_false_iff]
    exact ⟨hne, hds⟩

theorem exponent_eq_some_iff {cs : List Char} {e : Int} : exponent cs = some e ↔ Exponent cs e := by
  constructor
  · intro h
    unfold exponent at h
    split at h
    · cases h
      exact .absent
    · exact .lower (wholeNumber_eq_some_iff.1 h)
    · exact .upper (wholeNumber_eq_some_iff.1 h)
    · cases h
  · intro h
    cases h with
    | absent => rfl
    | lower h => exact wholeNumber_eq_some_iff.2 h
    | upper h => exact wholeNumber_eq_some_iff.2 h

theorem Exponent.head {cs : List Char} {e : Int} (h : Exponent cs e) : ∀ c ∈ cs.head?, isDigit c = false ∧ c ≠ '.' := by
  intro c hc
  cases h with
  | absent => cases hc
  | lower | upper =>
    cases hc
    decide

theorem afterPoint_spec (cs : List Char) :
    ∃ point, cs = point ++ (afterPoint cs).2 ∧ Point point (afterPoint cs).1 := by
  unfold afterPoint
  split
  · rename_i cs
    obtain ⟨hcs, hdigits⟩ := span_spec cs
    exact ⟨_, congrArg ('.' :: ·) hcs, .before hdigits⟩
  · exact ⟨[], rfl, .absent⟩

theorem afterPoint_append {point fraction rest : List Char} (h : Point point fraction)
    (hrest : ∀ c ∈ rest.head?, isDigit c = false ∧ c ≠ '.') : afterPoint (point ++ rest) = (fraction, rest) := by
  cases h with
  | before hds => exact span_digits hds (fun c hc => (hrest c hc).1)
  | absent =>
    rw [List.nil_append]
    unfold afterPoint
    split
    · exact absurd rfl (hrest _ rfl).2
    · rfl

/-- **`BigDecimal` reads the numerals.** -/
theorem bigDecimal_eq_some_iff {text : String} {u scale : Int} : bigDecimal text = some (u, scale) ↔ Numeral text u scale := by
  constructor
  · intro h
    unfold bigDecimal at h
    simp only at h
    split at h
    · cases h
    · rename_i hne
      obtain ⟨e, he, h⟩ := Option.bind_eq_some_iff.1 h
      split at h
      · rename_i hints
        obtain ⟨rfl, rfl⟩ := Prod.mk.inj (Option.some.inj h)
        obtain ⟨sign, htext, hsign⟩ := signed_spec text.toList
        obtain ⟨hwhole, hdigits⟩ := span_spec (signed text.toList).2
        obtain ⟨point, hpoint, hfraction⟩ := afterPoint_spec ((signed text.toList).2.span isDigit).2
        refine ⟨sign, _, _, point, _, _, e, ?_, hsign, hdigits, hfraction, exponent_eq_some_iff.1 he, ?_, hints.1, hints.2,
          rfl, rfl⟩
        · rw [← hpoint, ← hwhole]
          exact htext
        · intro hnil
          obtain ⟨hw, hf⟩ := List.append_eq_nil_iff.1 hnil
          rw [hw, hf] at hne
          exact hne rfl
      · cases h
  · rintro ⟨sign, s, whole, point, fraction, exp, e, htext, hsign, hwhole, hpoint, hexp, hne, he, hscale, rfl, rfl⟩
    have hnot : ∀ c ∈ (point ++ exp).head?, isDigit c = false := by
      intro c hc
      cases hpoint with
      | absent => exact (hexp.head c hc).1
      | before =>
        cases hc
        decide
    have hhead : ∀ c ∈ (whole ++ (point ++ exp)).head?, c ≠ '-' ∧ c ≠ '+' := by
      refine head_of_digits hwhole (fun c => not_sign_of_isDigit) (fun hnil c hc => ?_)
      cases hpoint with
      | absent => exact absurd (by rw [hnil]; rfl) hne
      | before =>
        cases hc
        decide
    unfold bigDecimal
    rw [htext, signed_append hsign hhead]
    simp only
    rw [span_digits hwhole hnot]
    simp only
    rw [afterPoint_append hpoint hexp.head]
    simp only
    rw [if_neg, exponent_eq_some_iff.2 hexp, Option.bind_some, if_pos ⟨he, hscale⟩]
    intro hempty
    rw [Bool.and_eq_true, List.isEmpty_iff, List.isEmpty_iff] at hempty
    exact hne (List.append_eq_nil_iff.2 hempty)

theorem Numeral.unique {text : String} {u scale u' scale' : Int} (h : Numeral text u scale) (h' : Numeral text u' scale') :
    u = u' ∧ scale = scale' := by
  have hread := bigDecimal_eq_some_iff.2 h
  rw [bigDecimal_eq_some_iff.2 h'] at hread
  obtain ⟨hu, hscale⟩ := Prod.mk.inj (Option.some.inj hread)
  exact ⟨hu.symm, hscale.symm⟩

/-! ## The casts -/

/-- **The text is a numeral whose value, half up to `s` places, has at most `p` digits.** -/
def IsDecimal (p s : Nat) (text : String) : Prop :=
  ∃ u scale : Int, Numeral text u scale ∧ |(u : ℚ)| * 10 ^ s < (10 ^ p - 1 / 2) * 10 ^ scale

theorem natAbs_divHalfUp (a : Int) {b : Nat} (hb : 0 < b) : (divHalfUp a b).natAbs = (2 * a.natAbs + b) / (2 * b) := by
  unfold divHalfUp
  rw [Int.natAbs_mul, Int.natAbs_natCast]
  rcases Int.lt_trichotomy a 0 with ha | rfl | ha
  · rw [Int.sign_eq_neg_one_of_neg ha]
    exact Nat.one_mul _
  · rw [Int.natAbs_zero, Nat.mul_zero, Nat.zero_add, Nat.div_eq_of_lt (show b < 2 * b by omega)]
    rfl
  · rw [Int.sign_eq_one_of_pos ha]
    exact Nat.one_mul _

/-- A whole number below `m` is half a unit below it. -/
theorem lt_sub_half_iff {n m : Nat} : n < m ↔ (n : ℚ) < m - 1 / 2 := by
  constructor
  · intro h
    have hle : (n : ℚ) + 1 ≤ m := by exact_mod_cast h
    linarith
  · intro h
    have hlt : (n : ℚ) < m := by linarith
    exact_mod_cast hlt

theorem setScale_fits_iff (u scale : Int) (p s : Nat) :
    (setScale u scale s).natAbs < 10 ^ p ↔ |(u : ℚ)| * 10 ^ s < (10 ^ p - 1 / 2) * 10 ^ scale := by
  have hten : (10 : ℚ) ≠ 0 := by norm_num
  have habs : |(u : ℚ)| = (u.natAbs : ℚ) := by rw [Nat.cast_natAbs, Int.cast_abs]
  rw [habs]
  unfold setScale
  split
  · rename_i hle
    generalize hk : ((s : Int) - scale).toNat = k
    have hs : (10 : ℚ) ^ s = 10 ^ k * 10 ^ scale := by
      rw [← zpow_natCast, ← zpow_natCast (10 : ℚ) k, ← zpow_add₀ hten]
      congr 1
      omega
    rw [hs, ← mul_assoc, mul_lt_mul_iff_left₀ (zpow_pos (by norm_num) scale), Int.natAbs_mul, Int.natAbs_pow]
    rw [lt_sub_half_iff]
    push_cast
    rfl
  · rename_i hgt
    generalize hk : (scale - (s : Int)).toNat = k
    have hscale : (10 : ℚ) ^ scale = 10 ^ k * 10 ^ s := by
      rw [← zpow_natCast, ← zpow_natCast (10 : ℚ) s, ← zpow_add₀ hten]
      congr 1
      omega
    have hpos : 0 < 10 ^ k := Nat.pow_pos (show 0 < 10 by decide)
    rw [hscale, ← mul_assoc, mul_lt_mul_iff_left₀ (pow_pos (by norm_num) s), natAbs_divHalfUp u hpos,
      Nat.div_lt_iff_lt_mul (by omega)]
    constructor
    · intro h
      have hlt : (2 * u.natAbs + 10 ^ k : ℚ) < 10 ^ p * (2 * 10 ^ k) := by exact_mod_cast h
      linarith
    · intro h
      have hlt : (2 * u.natAbs + 10 ^ k : ℚ) < 10 ^ p * (2 * 10 ^ k) := by linarith
      exact_mod_cast hlt

/-- **A text's cast to a decimal is none unless** the text is a numeral in range. -/
theorem tryCastDecimal_isSome_iff {p s : Nat} {text : String} :
    (tryCastDecimal p s (some text)).isSome = true ↔ IsDecimal p s text := by
  unfold tryCastDecimal IsDecimal
  rw [Option.bind_some]
  cases hread : bigDecimal text with
  | none =>
    refine iff_of_false (by simp) ?_
    rintro ⟨u, scale, hnumeral, -⟩
    rw [bigDecimal_eq_some_iff.2 hnumeral] at hread
    cases hread
  | some r =>
    have hofUnscaled : (Decimal.ofUnscaled p s (setScale r.1 r.2 s)).isSome = true ↔ (setScale r.1 r.2 s).natAbs < 10 ^ p := by
      unfold Decimal.ofUnscaled
      split <;> simp_all
    rw [Option.bind_some, hofUnscaled, setScale_fits_iff]
    constructor
    · exact fun h => ⟨_, _, bigDecimal_eq_some_iff.1 hread, h⟩
    · rintro ⟨u, scale, hnumeral, h⟩
      rw [bigDecimal_eq_some_iff.2 hnumeral] at hread
      cases hread
      exact h

theorem tryCastDecimal_eq_some_iff {p s : Nat} {text : String} {d : Decimal p s} :
    tryCastDecimal p s (some text) = some d ↔ ∃ u scale, Numeral text u scale ∧ d.unscaled = setScale u scale s := by
  unfold tryCastDecimal
  rw [Option.bind_some]
  constructor
  · intro h
    obtain ⟨r, hread, h⟩ := Option.bind_eq_some_iff.1 h
    refine ⟨_, _, bigDecimal_eq_some_iff.1 hread, ?_⟩
    unfold Decimal.ofUnscaled at h
    split at h
    · rw [← Option.some.inj h]
    · cases h
  · rintro ⟨u, scale, hnumeral, hd⟩
    rw [bigDecimal_eq_some_iff.2 hnumeral, Option.bind_some, ← hd, d.ofUnscaled_unscaled]

/-- The text is a whole number of 64 bits. -/
def IsBigint (text : String) : Prop := ∃ n, WholeNumeral text.toList n ∧ -2 ^ 63 ≤ n ∧ n < 2 ^ 63

theorem castBigint_casts_iff {column : Option String} :
    (∃ n, castBigint column = .ok n) ↔ ∀ text, column = some text → IsBigint text := by
  unfold castBigint IsBigint
  rw [castOf_casts_iff]
  refine forall_congr' (fun text => imp_congr_right (fun _ => ?_))
  rw [Option.bind_some, Option.isSome_filter, Option.any_eq_true]
  simp only [wholeNumber_eq_some_iff, decide_eq_true_eq]

theorem castDecimal_casts_iff {p s : Nat} {column : Option String} :
    (∃ d, castDecimal p s column = .ok d) ↔ ∀ text, column = some text → IsDecimal p s text := by
  unfold castDecimal
  rw [castOf_casts_iff]
  exact forall_congr' (fun text => imp_congr_right (fun _ => tryCastDecimal_isSome_iff))

end Sql
