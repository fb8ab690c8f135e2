import Mathlib.Algebra.Group.Int.Defs
import Mathlib.Algebra.Group.Nat.Defs
import RealtimeFinance.Python.Text
import RealtimeFinance.Sql.Merge
/-!
# Decimal — `DECIMAL(p, s)`, and the casts from text

A decimal is its unscaled integer, of at most `p` digits.  Every rounding is half up, away from zero at the half.  A
text casts as Java's `BigDecimal(String)` reads it: sign, digits of any script, point, exponent, no blank; the exponent and
the scale are an `int` each.  (What a JVM has no memory for is left out.)
-/
namespace Sql

structure Decimal (p s : Nat) where
  unscaled : Int
  fits : unscaled.natAbs < 10 ^ p
  deriving DecidableEq

def Decimal.ofUnscaled (p s : Nat) (u : Int) : Option (Decimal p s) :=
  if h : u.natAbs < 10 ^ p then some ⟨u, h⟩ else none

def divHalfUp (a : Int) (b : Nat) : Int := a.sign * ((2 * a.natAbs + b) / (2 * b) : Nat)

/-- The unscaled value of `a / b`, of scale `max sa sb`. -/
def divDecimal (a : Int) (sa : Nat) (b sb : Nat) : Int := divHalfUp (a * 10 ^ (max sa sb - sa + sb)) b

/-- `BigDecimal.setScale(to, HALF_UP)`, the old scale possibly negative. -/
def setScale (u scale : Int) (s : Nat) : Int :=
  if scale ≤ s then u * 10 ^ (s - scale).toNat else divHalfUp u (10 ^ (scale - s).toNat)

def signed : List Char → Int × List Char
  | '-' :: cs => (-1, cs)
  | '+' :: cs => (1, cs)
  | cs        => (1, cs)

/-- `Character.digit(c, 10)`: Latin 1 has ten digits, and one `char` holds those of the scripts below U+10000. -/
def digitOf (c : Char) : Option Nat :=
  if c.toNat < 0x100 then (if c.isDigit then some (c.toNat - '0'.toNat) else none)
  else if c.toNat < 0x10000 then Python.decimal c
  else none

def isDigit (c : Char) : Bool := (digitOf c).isSome

def digitsValue (ds : List Char) : Nat := ds.foldl (fun n c => 10 * n + (digitOf c).getD 0) 0

/-- `Long.parseLong`, of a number of any size. -/
def wholeNumber (cs : List Char) : Option Int :=
  let (sign, ds) := signed cs
  if ds.isEmpty || !ds.all isDigit then none else some (sign * digitsValue ds)

/-- A Java `int`. -/
def IsInt (n : Int) : Prop := -2 ^ 31 ≤ n ∧ n < 2 ^ 31

instance (n : Int) : Decidable (IsInt n) := inferInstanceAs (Decidable (_ ∧ _))

/-- What follows the digits before the point: the digits after it, and the rest. -/
def afterPoint : List Char → List Char × List Char
  | '.' :: cs => cs.span isDigit
  | cs        => ([], cs)

def exponent : List Char → Option Int
  | []        => some 0
  | 'e' :: cs => wholeNumber cs
  | 'E' :: cs => wholeNumber cs
  | _         => none

/-- `BigDecimal(String)`: the unscaled value and the scale. -/
def bigDecimal (text : String) : Option (Int × Int) :=
  let (sign, cs) := signed text.toList
  let (whole, cs) := cs.span isDigit
  let (fraction, cs) := afterPoint cs
  if whole.isEmpty && fraction.isEmpty then none
  else (exponent cs).bind (fun e =>
    if IsInt e ∧ IsInt (fraction.length - e) then some (sign * digitsValue (whole ++ fraction), fraction.length - e) else none)

def tryCastDecimal (p s : Nat) (text : Option String) : Option (Decimal p s) :=
  text.bind (fun t => (bigDecimal t).bind (fun d => Decimal.ofUnscaled p s (setScale d.1 d.2 s)))

/-- A cast that fails its statement: a text the try-cast makes NULL. -/
def castOf {α : Type} (tryCast : Option String → Option α) : Option String → Except Error (Option α)
  | none   => .ok none
  | some t => match tryCast (some t) with
    | some d => .ok (some d)
    | none   => .error .invalidCastArgument

def castDecimal (p s : Nat) : Option String → Except Error (Option (Decimal p s)) := castOf (tryCastDecimal p s)

def castBigint : Option String → Except Error (Option Int) :=
  castOf (fun text => text.bind (fun t => (wholeNumber t.toList).filter (fun n => decide (-2 ^ 63 ≤ n ∧ n < 2 ^ 63))))

/-- `CAST(d AS DECIMAL(p', s'))`: rounded, and out of range past `p'` digits. -/
def Decimal.cast {p s : Nat} (p' s' : Nat) (d : Decimal p s) : Except Error (Decimal p' s') :=
  match Decimal.ofUnscaled p' s' (setScale d.unscaled s s') with
  | some d => .ok d
  | none   => .error .numericValueOutOfRange

theorem castOf_eq_ok {α : Type} {tryCast : Option String → Option α} {text : Option String} {d : α}
    (h : tryCast text = some d) (hn : tryCast none = none) : castOf tryCast text = .ok (some d) := by
  cases text with
  | none => rw [hn] at h; cases h
  | some t => simp only [castOf, h]

/-- **A text its try-cast accepts does not fail its cast.** -/
theorem castDecimal_eq_ok {p s : Nat} {text : Option String} {d : Decimal p s}
    (h : tryCastDecimal p s text = some d) : castDecimal p s text = .ok (some d) :=
  castOf_eq_ok h rfl

/-- **A cast fails exactly at the texts its try-cast makes NULL.** -/
theorem castOf_casts_iff {α : Type} {tryCast : Option String → Option α} {text : Option String} :
    (∃ d, castOf tryCast text = .ok d) ↔ ∀ t, text = some t → (tryCast (some t)).isSome = true := by
  cases text with
  | none => exact iff_of_true ⟨none, rfl⟩ (fun t h => by cases h)
  | some t =>
    simp only [castOf, Option.some.injEq, forall_eq']
    cases tryCast (some t) with
    | none => simp
    | some d => simp

theorem divHalfUp_mul_right (a : Int) (b : Nat) {k : Nat} (hk : 0 < k) : divHalfUp (a * k) (b * k) = divHalfUp a b := by
  have hquot : (2 * (a.natAbs * k) + b * k) / (2 * (b * k)) = (2 * a.natAbs + b) / (2 * b) := by
    rw [← Nat.mul_assoc, ← Nat.add_mul, ← Nat.mul_assoc, Nat.mul_div_mul_right _ _ hk]
  unfold divHalfUp
  rw [Int.sign_mul, Int.sign_natCast_of_ne_zero (by omega), Int.mul_one, Int.natAbs_mul, Int.natAbs_natCast, hquot]

theorem divHalfUp_mul_self (a : Int) {b : Nat} (hb : 0 < b) : divHalfUp (a * b) b = a := by
  have h := divHalfUp_mul_right a 1 hb
  rw [Nat.one_mul] at h
  rw [h]
  unfold divHalfUp
  rw [show (2 * a.natAbs + 1) / (2 * 1) = a.natAbs by omega]
  exact Int.sign_mul_natAbs a

/-- **Half up rounds to a nearest multiple.** -/
theorem divHalfUp_near (a : Int) {b : Nat} (hb : 0 < b) : 2 * (divHalfUp a b * b - a).natAbs ≤ b := by
  unfold divHalfUp
  have hdiv := Nat.div_add_mod (2 * a.natAbs + b) (2 * b)
  have hlt := Nat.mod_lt (2 * a.natAbs + b) (show 0 < 2 * b by omega)
  generalize (2 * a.natAbs + b) / (2 * b) = q at hdiv ⊢
  have hqb : 2 * (b * q) ≤ 2 * a.natAbs + b ∧ 2 * a.natAbs < 2 * (b * q) + b := by
    rw [Nat.mul_assoc] at hdiv
    omega
  rcases Int.lt_trichotomy a 0 with ha | rfl | ha
  · have hneg : -1 * (q : Int) * b = -((b * q : Nat) : Int) := by
      push_cast
      rw [Int.neg_one_mul, Int.neg_mul, Int.mul_comm]
    rw [Int.sign_eq_neg_one_of_neg ha, hneg]
    omega
  · simp
  · rw [Int.sign_eq_one_of_pos ha, Int.one_mul, Int.mul_comm, ← Int.natCast_mul]
    omega

/-! ## Texts that no rounding touches -/

/-- **The text is the decimal**, digit for digit. -/
def Denotes (text : String) {p s : Nat} (d : Decimal p s) : Prop :=
  ∃ u scale : Int, bigDecimal text = some (u, scale) ∧
    d.unscaled * 10 ^ (scale - s).toNat = u * 10 ^ (s - scale).toNat

theorem Decimal.ofUnscaled_unscaled {p s : Nat} (d : Decimal p s) : Decimal.ofUnscaled p s d.unscaled = some d :=
  dif_pos d.fits

theorem Denotes.tryCast {text : String} {p s : Nat} {d : Decimal p s} (h : Denotes text d) :
    tryCastDecimal p s (some text) = some d := by
  obtain ⟨u, scale, htext, hvalue⟩ := h
  have hscaled : setScale u scale s = d.unscaled := by
    unfold setScale
    by_cases hle : scale ≤ s
    · rw [show (scale - s).toNat = 0 by omega, Int.pow_zero, Int.mul_one] at hvalue
      rw [if_pos hle, hvalue]
    · rw [show ((s : Int) - scale).toNat = 0 by omega, Int.pow_zero, Int.mul_one] at hvalue
      rw [if_neg hle, ← hvalue]
      have hself := divHalfUp_mul_self d.unscaled (Nat.pow_pos (n := (scale - s).toNat) (show 0 < 10 by decide))
      rwa [Int.natCast_pow] at hself
  unfold tryCastDecimal
  rw [Option.bind_some, htext, Option.bind_some, hscaled, d.ofUnscaled_unscaled]

example : tryCastDecimal 38 18 (some "-1.5e1") = Decimal.ofUnscaled 38 18 (-15 * 10 ^ 18) := by decide

end Sql
