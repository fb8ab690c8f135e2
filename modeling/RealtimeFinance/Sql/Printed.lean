import Mathlib.Data.String.Basic
import RealtimeFinance.Python.Text
import RealtimeFinance.Sql.Numeral
/-!
# Printed — the casts of a number that was printed

A text column that a program wrote with `str` of an integer casts back to that integer, as long as it is one of 64 bits.
As text such a column is ordered like its numbers as far as these have equally many digits (`toString_lt_iff`).
-/
namespace Sql

theorem digitOf_ascii {c : Char} (h : c.isDigit = true) : digitOf c = some (c.toNat - '0'.toNat) := by
  have hle := (Char.isDigit_iff_toNat.1 h).2
  have hlatin : c.toNat < 0x100 := Nat.lt_of_le_of_lt hle (by decide)
  unfold digitOf
  rw [if_pos hlatin, if_pos h]

theorem allDigits_toDigits (n : Nat) : AllDigits (Nat.toDigits 10 n) := by
  intro c hc
  unfold isDigit
  rw [digitOf_ascii (Nat.isDigit_of_mem_toDigits (by decide) (by decide) hc)]
  rfl

theorem foldl_digits : ∀ {ds : List Char}, (∀ c ∈ ds, c.isDigit = true) → ∀ n,
    ds.foldl (fun n c => 10 * n + (digitOf c).getD 0) n = Nat.ofDigitChars 10 ds n
  | [], _, _ => rfl
  | c :: ds, h, n => by
    obtain ⟨hc, hds⟩ := List.forall_mem_cons.1 h
    rw [List.foldl_cons, foldl_digits hds, digitOf_ascii hc, Nat.ofDigitChars_cons]
    rfl

theorem digitsValue_toDigits (n : Nat) : digitsValue (Nat.toDigits 10 n) = n := by
  unfold digitsValue
  rw [foldl_digits (fun c hc => Nat.isDigit_of_mem_toDigits (by decide) (by decide) hc), Nat.ofDigitChars_ten_toDigits]

theorem wholeNumber_toString (n : Int) : wholeNumber (toString n).toList = some n := by
  rw [wholeNumber_eq_some_iff, Python.toList_toString]
  split
  · refine ⟨[], 1, Nat.toDigits 10 n.toNat, rfl, .absent, allDigits_toDigits _, Nat.toDigits_ne_nil, ?_⟩
    rw [digitsValue_toDigits]
    omega
  · refine ⟨['-'], -1, Nat.toDigits 10 (-n).toNat, rfl, .minus, allDigits_toDigits _, Nat.toDigits_ne_nil, ?_⟩
    rw [digitsValue_toDigits]
    omega

/-- **A printed number casts when it is one of 64 bits.** -/
theorem castBigint_toString_iff {n : Int} :
    (∃ m, castBigint (some (toString n)) = .ok m) ↔ -2 ^ 63 ≤ n ∧ n < 2 ^ 63 := by
  unfold castBigint
  rw [castOf_casts_iff]
  constructor
  · intro h
    have hcast := h _ rfl
    rw [Option.bind_some, wholeNumber_toString] at hcast
    simpa using hcast
  · intro h t ht
    cases ht
    rw [Option.bind_some, wholeNumber_toString]
    simpa using h

/-- **And then it casts to itself.** -/
theorem castBigint_toString {n : Int} (h : -2 ^ 63 ≤ n ∧ n < 2 ^ 63) : castBigint (some (toString n)) = .ok (some n) := by
  refine castOf_eq_ok ?_ rfl
  rw [Option.bind_some, wholeNumber_toString, Option.filter_some, if_pos (decide_eq_true h)]

theorem toString_injective {n m : Int} (h : toString n = toString m) : n = m := by
  have hread := wholeNumber_toString n
  rw [h, wholeNumber_toString] at hread
  exact (Option.some.inj hread).symm

/-- A printed number is not the empty text. -/
theorem toString_ne_empty (n : Int) : toString n ≠ "" := by
  intro h
  have hread := wholeNumber_toString n
  rw [h] at hread
  cases hread

/-! ## Printed numbers in the order of text -/

theorem ofDigitChars_cons_eq (c : Char) (cs : List Char) :
    Nat.ofDigitChars 10 (c :: cs) 0 = 10 ^ cs.length * (c.toNat - 48) + Nat.ofDigitChars 10 cs 0 := by
  rw [Nat.ofDigitChars_cons, Nat.ofDigitChars_eq_ofDigitChars_zero, Nat.mul_zero, Nat.zero_add]
  rfl

theorem ofDigitChars_lt : ∀ {cs : List Char}, (∀ c ∈ cs, c.isDigit = true) → Nat.ofDigitChars 10 cs 0 < 10 ^ cs.length
  | [], _ => by simp
  | c :: cs, h => by
    have ih := ofDigitChars_lt (fun d hd => h d (List.mem_cons_of_mem _ hd))
    have hdigit : c.toNat - 48 ≤ 9 := Nat.sub_le_sub_right (Char.isDigit_iff_toNat.1 (h c List.mem_cons_self)).2 48
    have hmul := Nat.mul_le_mul_left (10 ^ cs.length) hdigit
    rw [ofDigitChars_cons_eq, List.length_cons, Nat.pow_succ]
    omega

/-- A leading digit decides, and the rest where it is the same. -/
theorem lead_lt_iff {a b k u v : Nat} (hu : u < k) (hv : v < k) : k * a + u < k * b + v ↔ a < b ∨ a = b ∧ u < v := by
  rcases Nat.lt_trichotomy a b with hab | rfl | hba
  · have hmul := Nat.mul_le_mul_left k (Nat.succ_le_of_lt hab)
    rw [Nat.mul_succ] at hmul
    exact iff_of_true (by omega) (Or.inl hab)
  · omega
  · have hmul := Nat.mul_le_mul_left k (Nat.succ_le_of_lt hba)
    rw [Nat.mul_succ] at hmul
    exact iff_of_false (by omega) (by omega)

/-- Digits of one length compare as text as they do as numbers. -/
theorem digits_lt_iff : ∀ {cs ds : List Char}, (∀ c ∈ cs, c.isDigit = true) → (∀ d ∈ ds, d.isDigit = true) →
    cs.length = ds.length → (cs < ds ↔ Nat.ofDigitChars 10 cs 0 < Nat.ofDigitChars 10 ds 0)
  | [], [], _, _, _ => by simp
  | c :: cs, d :: ds, hcs, hds, hlen => by
    have hlen' : cs.length = ds.length := Nat.succ.inj hlen
    have hcs' : ∀ x ∈ cs, x.isDigit = true := fun x hx => hcs x (List.mem_cons_of_mem _ hx)
    have hds' : ∀ x ∈ ds, x.isDigit = true := fun x hx => hds x (List.mem_cons_of_mem _ hx)
    have hrest := ofDigitChars_lt hcs'
    have hc : 48 ≤ c.toNat := (Char.isDigit_iff_toNat.1 (hcs c List.mem_cons_self)).1
    have hd : 48 ≤ d.toNat := (Char.isDigit_iff_toNat.1 (hds d List.mem_cons_self)).1
    have hlead : c < d ↔ c.toNat - 48 < d.toNat - 48 := by
      rw [show c < d ↔ c.toNat < d.toNat from Iff.rfl]
      omega
    have heq : c = d ↔ c.toNat - 48 = d.toNat - 48 := by
      rw [← Char.toNat_inj]
      omega
    rw [hlen'] at hrest
    rw [List.cons_lt_cons_iff, digits_lt_iff hcs' hds' hlen', ofDigitChars_cons_eq, ofDigitChars_cons_eq, hlen',
      lead_lt_iff hrest (ofDigitChars_lt hds'), hlead, heq]

/-- **Printed numbers of equally many digits are ordered as text like the numbers.** -/
theorem toString_lt_iff {n m : Nat} (h : (toString n).length = (toString m).length) : toString n < toString m ↔ n < m := by
  have hdigits : ∀ k, ∀ c ∈ Nat.toDigits 10 k, c.isDigit = true := fun k c hc =>
    Nat.isDigit_of_mem_toDigits (by decide) (by decide) hc
  rw [String.lt_iff_toList_lt]
  simp only [Nat.toString_eq_repr, Nat.toList_repr] at h ⊢
  have hlen : (Nat.toDigits 10 n).length = (Nat.toDigits 10 m).length := by
    rw [← Nat.toList_repr, ← Nat.toList_repr, String.length_toList, String.length_toList, h]
  rw [digits_lt_iff (hdigits n) (hdigits m) hlen, Nat.ofDigitChars_ten_toDigits, Nat.ofDigitChars_ten_toDigits]

theorem length_toString_mono {n m : Nat} (h : n ≤ m) : (toString n).length ≤ (toString m).length := by
  have hpos : 0 < (toString m).length := Nat.length_repr_pos
  exact (Nat.length_repr_le_iff hpos).2 (Nat.lt_of_le_of_lt h ((Nat.length_repr_le_iff hpos).1 (Nat.le_refl _)))

theorem le_of_toString_le {n m : Nat} (hlen : (toString n).length ≤ (toString m).length) (h : toString n ≤ toString m) :
    n ≤ m := by
  by_contra hlt
  have hlen' := Nat.le_antisymm (length_toString_mono (Nat.le_of_lt (Nat.not_le.1 hlt))) hlen
  exact not_lt.2 h ((toString_lt_iff hlen').2 (Nat.not_le.1 hlt))

theorem eq_of_toString_eq {n m : Nat} (h : toString n = toString m) : n = m :=
  Nat.le_antisymm (le_of_toString_le (h ▸ Nat.le_refl _) h.le) (le_of_toString_le (h ▸ Nat.le_refl _) h.ge)

/-- **The least of printed numbers as text is the least number exactly when no other has fewer digits.** -/
theorem least_toString_iff {p : Nat → Prop} {n : Nat} (hleast : ∀ m, p m → toString n ≤ toString m) :
    (∀ m, p m → n ≤ m) ↔ ∀ m, p m → (toString n).length ≤ (toString m).length :=
  ⟨fun h m hm => length_toString_mono (h m hm), fun h m hm => le_of_toString_le (h m hm) (hleast m hm)⟩

theorem greatest_toString_iff {p : Nat → Prop} {n : Nat} (hgreatest : ∀ m, p m → toString m ≤ toString n) :
    (∀ m, p m → m ≤ n) ↔ ∀ m, p m → (toString m).length ≤ (toString n).length :=
  ⟨fun h m hm => length_toString_mono (h m hm), fun h m hm => le_of_toString_le (h m hm) (hgreatest m hm)⟩

end Sql
