import RealtimeFinance.Lakehouse.Transforms
import RealtimeFinance.Sql.Numeral
/-!
# Casts — where Spark's cast of a text to a decimal is Trino's

Spark trims the text first, and gives up on more than 38 integral digits before it rounds.  A text that Trino casts has no
blank (`bigDecimal_printable`) and no more digits than its decimal has room for; so the engines differ on the texts that
trimming changes, and on no other with a positive decimal (`positive_cast_iff`).
-/
namespace Lakehouse

open Sql

/-! ## No blank -/

def Printable (cs : List Char) : Prop := ∀ c ∈ cs, 32 < c.toNat

theorem Printable.append {cs ds : List Char} (h : Printable cs) (h' : Printable ds) : Printable (cs ++ ds) :=
  List.forall_mem_append.2 ⟨h, h'⟩

theorem Printable.cons {c : Char} {cs : List Char} (hc : 32 < c.toNat) (h : Printable cs) : Printable (c :: cs) :=
  List.forall_mem_cons.2 ⟨hc, h⟩

theorem printable_of_digits {ds : List Char} (h : AllDigits ds) : Printable ds := by
  intro c hc
  have hdigit := h c hc
  by_cases hlatin : c.toNat < 0x100
  · unfold isDigit digitOf at hdigit
    rw [if_pos hlatin] at hdigit
    split at hdigit
    · rename_i hascii
      have hzero : 48 ≤ c.toNat := (Char.isDigit_iff_toNat.1 hascii).1
      omega
    · cases hdigit
  · omega

theorem printable_of_sign {sign : List Char} {s : Int} (h : Sign sign s) : Printable sign := by
  cases h with
  | absent => exact List.forall_mem_nil _
  | plus => exact List.forall_mem_singleton.2 (by decide)
  | minus => exact List.forall_mem_singleton.2 (by decide)

theorem printable_of_wholeNumeral {cs : List Char} {n : Int} (h : WholeNumeral cs n) : Printable cs := by
  obtain ⟨sign, s, ds, rfl, hsign, hds, -, -⟩ := h
  exact (printable_of_sign hsign).append (printable_of_digits hds)

/-- **A decimal's text has no blank.** -/
theorem bigDecimal_printable {text : String} {d : Int × Int} (h : bigDecimal text = some d) : Printable text.toList := by
  obtain ⟨sign, s, whole, point, fraction, exp, e, htext, hsign, hwhole, hpoint, hexp, -⟩ := bigDecimal_eq_some_iff.1 h
  rw [htext]
  refine (printable_of_sign hsign).append ((printable_of_digits hwhole).append (Printable.append ?_ ?_))
  · cases hpoint with
    | absent => exact fun c hc => by cases hc
    | before hds => exact (printable_of_digits hds).cons (by decide)
  · cases hexp with
    | absent => exact fun c hc => by cases hc
    | lower h | upper h => exact (printable_of_wholeNumeral h).cons (by decide)

theorem dropWhile_blank {cs : List Char} (h : Printable cs) : cs.dropWhile (fun c => decide (c.toNat ≤ 32)) = cs := by
  cases cs with
  | nil => rfl
  | cons c cs =>
    have hc := h c List.mem_cons_self
    rw [List.dropWhile_cons_of_neg (by rw [decide_eq_true_eq]; omega)]

theorem javaTrim_of_printable {cs : List Char} (h : Printable cs) : javaTrim cs = cs := by
  unfold javaTrim
  simp only
  rw [dropWhile_blank h, dropWhile_blank (fun c hc => h c (List.mem_reverse.1 hc)), List.reverse_reverse]

/-! ## Room for the digits -/

theorem numDigits_le {u : Int} {k : Nat} (hk : 0 < k) (h : u.natAbs < 10 ^ k) : numDigits u ≤ k :=
  (Nat.length_toDigits_le_iff (by decide) hk).2 h

/-- **A positive decimal has room for the integral digits of its text.** -/
theorem numDigits_of_fits {u scale : Int} {d : Decimal 38 18} (hd : d.unscaled = setScale u scale 18) (hpos : 0 < d.unscaled) :
    (numDigits u : Int) - scale ≤ 38 := by
  have hfits := d.fits
  unfold setScale at hd
  split at hd
  · rename_i hle
    generalize hk : ((18 : Nat) - scale : Int).toNat = k at hd
    have habs : d.unscaled.natAbs = u.natAbs * 10 ^ k := by
      rw [hd, Int.natAbs_mul, Int.natAbs_pow]
      rfl
    have hu : 1 ≤ u.natAbs := by
      refine Nat.pos_of_ne_zero (fun hzero => ?_)
      rw [hzero, Nat.zero_mul] at habs
      omega
    have hk38 : k < 38 := by
      refine (Nat.pow_lt_pow_iff_right (show 1 < 10 by decide)).1 ?_
      calc 10 ^ k = 1 * 10 ^ k := (Nat.one_mul _).symm
        _ ≤ u.natAbs * 10 ^ k := Nat.mul_le_mul_right _ hu
        _ < 10 ^ 38 := by rw [← habs]; exact hfits
    have hdigits : u.natAbs < 10 ^ (38 - k) := by
      refine Nat.lt_of_mul_lt_mul_right (a := 10 ^ k) ?_
      rw [← habs, ← Nat.pow_add, Nat.sub_add_cancel (Nat.le_of_lt hk38)]
      exact hfits
    have := numDigits_le (Nat.sub_pos_of_lt hk38) hdigits
    omega
  · rename_i hgt
    generalize hk : (scale - (18 : Nat) : Int).toNat = k at hd
    have hnear := divHalfUp_near u (Nat.pow_pos (n := k) (show 0 < 10 by decide))
    rw [← hd] at hnear
    have hdigits : u.natAbs < 10 ^ (38 + k) := by
      have hunit : 0 < 10 ^ k := Nat.pow_pos (show 0 < 10 by decide)
      have hroom : (d.unscaled.toNat + 1) * 10 ^ k ≤ 10 ^ 38 * 10 ^ k := Nat.mul_le_mul_right _ (by omega)
      have hscaled : d.unscaled * ((10 ^ k : Nat) : Int) = ((d.unscaled.toNat * 10 ^ k : Nat) : Int) := by
        rw [Int.natCast_mul, Int.toNat_of_nonneg (Int.le_of_lt hpos)]
      rw [hscaled] at hnear
      rw [Nat.add_mul, Nat.one_mul, ← Nat.pow_add] at hroom
      generalize d.unscaled.toNat * 10 ^ k = x at hnear hroom
      generalize 10 ^ k = unit at hnear hroom hunit
      generalize 10 ^ (38 + k) = room at hroom
      omega
    have := numDigits_le (show 0 < 38 + k by omega) hdigits
    omega

/-! ## The two casts -/

/-- A text that trimming leaves alone. -/
def Untrimmed (text : String) : Prop := javaTrim text.toList = text.toList

/-- **The casts to a positive decimal agree** where the text is not trimmed. -/
theorem positive_cast_iff (text : String) (d : Decimal 38 18) : tryCastDecimal 38 18 (some text) = some d ∧ 0 < d.unscaled ↔
    (tryCastSparkDecimal 38 18 (some text) = some d ∧ 0 < d.unscaled) ∧ Untrimmed text := by
  unfold tryCastDecimal tryCastSparkDecimal Untrimmed
  simp only [Option.bind_some]
  constructor
  · rintro ⟨h, hpos⟩
    obtain ⟨r, hr, hd⟩ := Option.bind_eq_some_iff.1 h
    have htrim := javaTrim_of_printable (bigDecimal_printable hr)
    have hunscaled : d.unscaled = setScale r.1 r.2 18 := by
      unfold Decimal.ofUnscaled at hd
      split at hd
      · cases hd
        rfl
      · cases hd
    refine ⟨⟨?_, hpos⟩, htrim⟩
    rw [htrim, String.ofList_toList, hr, Option.bind_some, if_pos (numDigits_of_fits hunscaled hpos)]
    exact hd
  · rintro ⟨⟨h, hpos⟩, htrim⟩
    rw [htrim, String.ofList_toList] at h
    obtain ⟨r, hr, hd⟩ := Option.bind_eq_some_iff.1 h
    refine ⟨?_, hpos⟩
    rw [hr, Option.bind_some]
    split at hd
    · exact hd
    · cases hd

end Lakehouse
