/-!
# Calendar — `datetime.date`, and `calendar.monthrange`

A date is a year, a month and a day that the proleptic Gregorian calendar has.  The day after the last of 9999 raises.
-/
namespace Python

def isLeap (year : Nat) : Bool := year % 4 == 0 && (year % 100 != 0 || year % 400 == 0)

/-- `monthrange(year, month)[1]`. -/
def daysInMonth (year month : Nat) : Nat :=
  match month with
  | 2                  => if isLeap year then 29 else 28
  | 4 | 6 | 9 | 11     => 30
  | _                  => 31

theorem daysInMonth_pos (year month : Nat) : 1 ≤ daysInMonth year month := by
  unfold daysInMonth
  split
  · split <;> decide
  all_goals decide

/-- `date.max.year`. -/
def maxYear : Nat := 9999

structure Date where
  year : Nat
  month : Nat
  day : Nat
  year_pos : 1 ≤ year
  year_le : year ≤ maxYear
  month_pos : 1 ≤ month
  month_le : month ≤ 12
  day_pos : 1 ≤ day
  day_le : day ≤ daysInMonth year month
  deriving DecidableEq

namespace Date

/-- `date(year, month, day)`; `none` where it raises. -/
def ofParts (year month day : Nat) : Option Date :=
  if h : (1 ≤ year ∧ year ≤ maxYear) ∧ (1 ≤ month ∧ month ≤ 12) ∧ 1 ≤ day ∧ day ≤ daysInMonth year month
  then some ⟨year, month, day, h.1.1, h.1.2, h.2.1.1, h.2.1.2, h.2.2.1, h.2.2.2⟩
  else none

protected def le (a b : Date) : Prop :=
  a.year < b.year ∨ a.year = b.year ∧ (a.month < b.month ∨ a.month = b.month ∧ a.day ≤ b.day)

instance : LE Date := ⟨Date.le⟩

instance (a b : Date) : Decidable (a ≤ b) :=
  inferInstanceAs (Decidable (a.year < b.year ∨ a.year = b.year ∧ (a.month < b.month ∨ a.month = b.month ∧ a.day ≤ b.day)))

/-- `max(a, b)`. -/
def latest (a b : Date) : Date := if b ≤ a then a else b

/-- `min(a, b)`. -/
def earliest (a b : Date) : Date := if a ≤ b then a else b

/-- `d + timedelta(days=1)`. -/
def tomorrow (d : Date) : Option Date :=
  if hday : d.day < daysInMonth d.year d.month then
    some { d with day := d.day + 1, day_pos := Nat.le_add_left 1 d.day, day_le := hday }
  else if hmonth : d.month < 12 then
    some { d with
      month := d.month + 1, day := 1, month_pos := Nat.le_add_left 1 d.month, month_le := hmonth
      day_pos := Nat.le_refl 1, day_le := daysInMonth_pos _ _ }
  else if hyear : d.year < maxYear then
    some { year := d.year + 1, month := 1, day := 1, year_pos := Nat.le_add_left 1 d.year, year_le := hyear
           month_pos := Nat.le_refl 1, month_le := by decide, day_pos := Nat.le_refl 1, day_le := daysInMonth_pos _ _ }
  else none

/-- `d + timedelta(days=n)`. -/
def addDays (d : Date) : Nat → Option Date
  | 0     => some d
  | n + 1 => d.tomorrow.bind (fun next => next.addDays n)

/-- `d.replace(day=1)`. -/
def firstOfMonth (d : Date) : Date := { d with day := 1, day_pos := Nat.le_refl 1, day_le := daysInMonth_pos _ _ }

def lastOfMonth (d : Date) : Date :=
  { d with day := daysInMonth d.year d.month, day_pos := daysInMonth_pos _ _, day_le := Nat.le_refl _ }

/-- `d.toordinal()`. -/
def toOrdinal (d : Date) : Nat :=
  let years := d.year - 1
  years * 365 + years / 4 - years / 100 + years / 400 +
    (List.range (d.month - 1)).foldl (fun days i => days + daysInMonth d.year (i + 1)) 0 + d.day

/-- A number with zeros before it, up to the width. -/
def padded (width n : Nat) : String :=
  let digits := Nat.toDigits 10 n
  String.ofList (List.replicate (width - digits.length) '0' ++ digits)

theorem isDigit_of_mem_padded {width n : Nat} {c : Char} (h : c ∈ (padded width n).toList) : c.isDigit = true := by
  unfold padded at h
  rw [String.toList_ofList, List.mem_append] at h
  rcases h with h | h
  · rw [List.eq_of_mem_replicate h]
    rfl
  · exact Nat.isDigit_of_mem_toDigits (by decide) (by decide) h

/-- `%Y-%m`. -/
def monthText (d : Date) : String := padded 4 d.year ++ "-" ++ padded 2 d.month

/-- `%Y-%m-%d`. -/
def dayText (d : Date) : String := d.monthText ++ "-" ++ padded 2 d.day

end Date

example : (Date.mk 2024 2 29 (by decide) (by decide) (by decide) (by decide) (by decide) (by decide)).toOrdinal = 738945 := by
  decide

end Python
