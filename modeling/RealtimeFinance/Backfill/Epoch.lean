import Mathlib.Algebra.Group.Int.Defs
/-!
# Epoch — `awsnative.backfill.epoch`

The archive's timestamps changed from milliseconds to microseconds.  The unit of a value is read off its magnitude: from
2015 to 2040 the two ranges are far apart.  A normaliser holds every later value of its file to the unit of the first.
-/
namespace Backfill

inductive TimestampUnit
  | millis
  | micros
  deriving DecidableEq

/-- What a bad archive file raises: `TimestampUnitError`, and the parsers' `ValueError`. -/
inductive ParseError
  | notAnInstant (value : Int)
  | unitDisagrees (value : Int) (observed earlier : TimestampUnit)
  | columns (layout : String) (fields expected : Nat)
  | notAnInteger (text : String)
  | isBuyerMaker (text : String)
  deriving DecidableEq

/-- 2015-01-01T00:00:00Z. -/
def epochFloorS : Int := 1420070400

/-- 2040-01-01T00:00:00Z. -/
def epochCeilS : Int := 2208988800

def millisRange : Int × Int := (epochFloorS * 1000, epochCeilS * 1000)

def microsRange : Int × Int := (epochFloorS * 1000000, epochCeilS * 1000000)

def unitOf (value : Int) : Except ParseError TimestampUnit :=
  if millisRange.1 ≤ value ∧ value < millisRange.2 then .ok .millis
  else if microsRange.1 ≤ value ∧ value < microsRange.2 then .ok .micros
  else .error (.notAnInstant value)

def toMicros (value : Int) : TimestampUnit → Int
  | .millis => value * 1000
  | .micros => value

/-- The unit of the file so far. -/
structure UnitNormaliser where
  unit : Option TimestampUnit

def UnitNormaliser.new : UnitNormaliser := ⟨none⟩

/-- `normalise(value)`: the microseconds, and the unit the file is held to from here on. -/
def UnitNormaliser.call (self : UnitNormaliser) (value : Int) : Except ParseError (Int × UnitNormaliser) := do
  let observed ← unitOf value
  match self.unit with
  | none => return (toMicros value observed, ⟨some observed⟩)
  | some unit =>
    if observed ≠ unit then .error (.unitDisagrees value observed unit)
    else return (toMicros value observed, ⟨some unit⟩)

/-- From 2015 to 2040, in microseconds. -/
def Plausible (us : Int) : Prop := microsRange.1 ≤ us ∧ us < microsRange.2

/-- **A value in either unit is normalised to a plausible instant**, and to no other. -/
theorem UnitNormaliser.call_ok {self self' : UnitNormaliser} {value us : Int} (h : self.call value = .ok (us, self')) :
    ∃ unit, unitOf value = .ok unit ∧ us = toMicros value unit ∧ self'.unit = some unit ∧ Plausible us := by
  unfold UnitNormaliser.call at h
  cases hunit : unitOf value with
  | error e => rw [hunit] at h; cases h
  | ok unit =>
    rw [hunit] at h
    have hspan : Plausible (toMicros value unit) := by
      unfold unitOf millisRange microsRange epochFloorS epochCeilS at hunit
      unfold Plausible microsRange epochFloorS epochCeilS
      split at hunit
      · rename_i hrange
        cases hunit
        simp only [toMicros]
        omega
      · split at hunit
        · rename_i hrange
          cases hunit
          simp only [toMicros]
          omega
        · cases hunit
    cases hself : self.unit with
    | none =>
      simp only [hself, bind, Except.bind, pure, Except.pure, Except.ok.injEq, Prod.mk.injEq] at h
      obtain ⟨rfl, rfl⟩ := h
      exact ⟨unit, rfl, rfl, rfl, hspan⟩
    | some earlier =>
      simp only [hself, bind, Except.bind, pure, Except.pure] at h
      split at h
      · cases h
      · rename_i hsame
        have hsame' : unit = earlier := Decidable.not_not.1 hsame
        simp only [Except.ok.injEq, Prod.mk.injEq] at h
        obtain ⟨rfl, rfl⟩ := h
        exact ⟨unit, rfl, rfl, by rw [hsame'], hspan⟩

/-- **A value of the file's own unit is accepted.** -/
theorem UnitNormaliser.call_of_unit {self : UnitNormaliser} {value : Int} {unit : TimestampUnit}
    (hunit : unitOf value = .ok unit) (hself : self.unit = none ∨ self.unit = some unit) :
    self.call value = .ok (toMicros value unit, ⟨some unit⟩) := by
  unfold UnitNormaliser.call
  rw [hunit]
  rcases hself with hself | hself
  · simp only [hself, bind, Except.bind, pure, Except.pure]
  · simp only [hself, bind, Except.bind, pure, Except.pure, ne_eq, not_true_eq_false, if_false]

theorem unitOf_millis {us : Int} (h : Plausible us) : unitOf (us / 1000) = .ok .millis := by
  unfold Plausible microsRange epochFloorS epochCeilS at h
  unfold unitOf millisRange epochFloorS epochCeilS
  rw [if_pos (by omega)]

theorem unitOf_micros {us : Int} (h : Plausible us) : unitOf us = .ok .micros := by
  unfold Plausible microsRange epochFloorS epochCeilS at h
  unfold unitOf millisRange microsRange epochFloorS epochCeilS
  rw [if_neg (by omega), if_pos (by omega)]

end Backfill
