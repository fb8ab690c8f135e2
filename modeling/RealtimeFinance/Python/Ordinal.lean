import RealtimeFinance.Python.Calendar
/-!
# Ordinal — dates counted

The day after a date has the next ordinal, and dates are ordered as their ordinals (`Date.le_iff_toOrdinal_le`).  A date's
month is counted the same way, and a date lies in a month exactly when it is between its first day and its last.
-/
namespace Python

def daysBeforeYear (year : Nat) : Nat :=
  (year - 1) * 365 + (year - 1) / 4 - (year - 1) / 100 + (year - 1) / 400

def daysBeforeMonth (year month : Nat) : Nat :=
  (List.range (month - 1)).foldl (fun days i => days + daysInMonth year (i + 1)) 0

theorem daysBeforeYear_succ {year : Nat} (h : 1 ≤ year) :
    daysBeforeYear (year + 1) = daysBeforeYear year + if isLeap year then 366 else 365 := by
  have hleap : isLeap year = true ↔ year % 4 = 0 ∧ (year % 100 ≠ 0 ∨ year % 400 = 0) := by
    simp [isLeap]
  obtain ⟨y, rfl⟩ : ∃ y, year = y + 1 := ⟨year - 1, by omega⟩
  have h4 : (y + 1) / 4 = y / 4 + if (y + 1) % 4 = 0 then 1 else 0 := by split <;> omega
  have h100 : (y + 1) / 100 = y / 100 + if (y + 1) % 100 = 0 then 1 else 0 := by split <;> omega
  have h400 : (y + 1) / 400 = y / 400 + if (y + 1) % 400 = 0 then 1 else 0 := by split <;> omega
  have hle : y / 100 ≤ y / 4 := by omega
  have hhundred : (y + 1) % 100 = 0 → (y + 1) % 4 = 0 := by omega
  have hfourHundred : (y + 1) % 400 = 0 → (y + 1) % 100 = 0 := by omega
  unfold daysBeforeYear
  rw [Nat.add_sub_cancel, Nat.add_sub_cancel, h4, h100, h400]
  generalize y / 4 = q4, y / 100 = q100, y / 400 = q400 at hle ⊢
  by_cases hl : isLeap (y + 1) = true
  · obtain ⟨hfour, hor⟩ := hleap.1 hl
    rw [if_pos hl, if_pos hfour]
    rcases hor with hnot | hfh
    · rw [if_neg hnot, if_neg (mt hfourHundred hnot)]
      omega
    · rw [if_pos hfh, if_pos (hfourHundred hfh)]
      omega
  · rw [if_neg hl]
    by_cases hfour : (y + 1) % 4 = 0
    · have hcentury : (y + 1) % 100 = 0 ∧ ¬ (y + 1) % 400 = 0 := by
        have := mt hleap.2 hl
        omega
      rw [if_pos hfour, if_pos hcentury.1, if_neg hcentury.2]
      omega
    · rw [if_neg hfour, if_neg (mt hhundred hfour), if_neg (mt hfourHundred (mt hhundred hfour))]
      omega

theorem daysBeforeYear_mono {a b : Nat} (ha : 1 ≤ a) (hab : a ≤ b) : daysBeforeYear a ≤ daysBeforeYear b := by
  obtain ⟨k, rfl⟩ := Nat.exists_eq_add_of_le hab
  induction k with
  | zero => exact Nat.le_refl _
  | succ k ih =>
    have hstep := daysBeforeYear_succ (Nat.le_trans ha (Nat.le_add_right a k))
    have hle := ih (Nat.le_add_right a k)
    rw [← Nat.add_assoc, hstep]
    exact Nat.le_trans hle (Nat.le_add_right _ _)

theorem daysBeforeMonth_succ (year : Nat) {month : Nat} (h : 1 ≤ month) :
    daysBeforeMonth year (month + 1) = daysBeforeMonth year month + daysInMonth year month := by
  obtain ⟨m, rfl⟩ : ∃ m, month = m + 1 := ⟨month - 1, by omega⟩
  unfold daysBeforeMonth
  rw [Nat.add_sub_cancel, Nat.add_sub_cancel, List.range_succ, List.foldl_append]
  rfl

theorem daysBeforeMonth_mono (year : Nat) {a b : Nat} (ha : 1 ≤ a) (hab : a ≤ b) :
    daysBeforeMonth year a ≤ daysBeforeMonth year b := by
  obtain ⟨k, rfl⟩ := Nat.exists_eq_add_of_le hab
  induction k with
  | zero => exact Nat.le_refl _
  | succ k ih =>
    have hstep := daysBeforeMonth_succ year (Nat.le_trans ha (Nat.le_add_right a k))
    have hle := ih (Nat.le_add_right a k)
    rw [← Nat.add_assoc, hstep]
    exact Nat.le_trans hle (Nat.le_add_right _ _)

/-- The days of a year. -/
theorem daysBeforeMonth_thirteen (year : Nat) : daysBeforeMonth year 13 = if isLeap year then 366 else 365 := by
  have hfebruary : daysInMonth year 2 = if isLeap year then 29 else 28 := rfl
  show 0 + daysInMonth year 1 + daysInMonth year 2 + daysInMonth year 3 + daysInMonth year 4 + daysInMonth year 5 +
    daysInMonth year 6 + daysInMonth year 7 + daysInMonth year 8 + daysInMonth year 9 + daysInMonth year 10 +
    daysInMonth year 11 + daysInMonth year 12 = _
  rw [hfebruary]
  simp only [daysInMonth]
  split <;> rfl

namespace Date

theorem toOrdinal_eq (d : Date) : d.toOrdinal = daysBeforeYear d.year + daysBeforeMonth d.year d.month + d.day := rfl

theorem ext {a b : Date} (hyear : a.year = b.year) (hmonth : a.month = b.month) (hday : a.day = b.day) : a = b := by
  cases a
  cases b
  cases hyear
  cases hmonth
  cases hday
  rfl

/-- Before, as tuples are compared. -/
def Before (a b : Date) : Prop :=
  a.year < b.year ∨ a.year = b.year ∧ (a.month < b.month ∨ a.month = b.month ∧ a.day < b.day)

theorem not_le {a b : Date} : ¬ a ≤ b ↔ b.Before a := by
  show ¬ Date.le a b ↔ b.Before a
  unfold Date.le Before
  omega

theorem eq_or_before {a b : Date} (h : a ≤ b) : a = b ∨ a.Before b := by
  have h : Date.le a b := h
  unfold Date.le at h
  by_cases heq : a.year = b.year ∧ a.month = b.month ∧ a.day = b.day
  · exact Or.inl (ext heq.1 heq.2.1 heq.2.2)
  · refine Or.inr ?_
    unfold Before
    omega

/-- The days up to the end of a date's month. -/
theorem toOrdinal_le_month (d : Date) : d.toOrdinal ≤ daysBeforeYear d.year + daysBeforeMonth d.year (d.month + 1) := by
  have := d.day_le
  rw [toOrdinal_eq, daysBeforeMonth_succ d.year d.month_pos]
  omega

/-- The days up to the end of a date's year. -/
theorem toOrdinal_le_year (d : Date) : d.toOrdinal ≤ daysBeforeYear (d.year + 1) := by
  have hmonth := d.toOrdinal_le_month
  have hyear := daysBeforeMonth_mono d.year (Nat.le_add_left 1 d.month) (Nat.succ_le_succ d.month_le)
  rw [daysBeforeMonth_thirteen] at hyear
  rw [daysBeforeYear_succ d.year_pos]
  omega

theorem toOrdinal_lt {a b : Date} (h : a.Before b) : a.toOrdinal < b.toOrdinal := by
  have hday := b.day_pos
  rcases h with hyear | ⟨hyear, hmonth | ⟨hmonth, hday⟩⟩
  · have hle := a.toOrdinal_le_year
    have hmono := daysBeforeYear_mono (Nat.le_add_left 1 a.year) hyear
    rw [toOrdinal_eq b]
    omega
  · have hle := a.toOrdinal_le_month
    have hmono := daysBeforeMonth_mono a.year (Nat.le_add_left 1 a.month) hmonth
    rw [toOrdinal_eq b, ← hyear]
    omega
  · rw [toOrdinal_eq, toOrdinal_eq, hyear, hmonth]
    omega

/-- **Dates are ordered as their ordinals.** -/
theorem le_iff_toOrdinal_le {a b : Date} : a ≤ b ↔ a.toOrdinal ≤ b.toOrdinal := by
  constructor
  · intro h
    rcases eq_or_before h with rfl | hbefore
    · exact Nat.le_refl _
    · exact Nat.le_of_lt (toOrdinal_lt hbefore)
  · intro h
    refine Decidable.byContradiction (fun hnot => ?_)
    have := toOrdinal_lt (not_le.1 hnot)
    omega

theorem toOrdinal_injective {a b : Date} (h : a.toOrdinal = b.toOrdinal) : a = b := by
  rcases eq_or_before (le_iff_toOrdinal_le.2 (Nat.le_of_eq h)) with heq | hbefore
  · exact heq
  · have := toOrdinal_lt hbefore
    omega

theorem latest_le_iff {a b d : Date} : a.latest b ≤ d ↔ a ≤ d ∧ b ≤ d := by
  unfold latest
  split
  · rename_i h
    rw [le_iff_toOrdinal_le] at h
    simp only [le_iff_toOrdinal_le]
    omega
  · rename_i h
    have h := toOrdinal_lt (not_le.1 h)
    simp only [le_iff_toOrdinal_le]
    omega

theorem le_earliest_iff {a b d : Date} : d ≤ a.earliest b ↔ d ≤ a ∧ d ≤ b := by
  unfold earliest
  split
  · rename_i h
    rw [le_iff_toOrdinal_le] at h
    simp only [le_iff_toOrdinal_le]
    omega
  · rename_i h
    have h := toOrdinal_lt (not_le.1 h)
    simp only [le_iff_toOrdinal_le]
    omega

/-! ## The day after -/

theorem toOrdinal_tomorrow {d next : Date} (h : d.tomorrow = some next) : next.toOrdinal = d.toOrdinal + 1 := by
  unfold tomorrow at h
  split at h
  · cases h
    rfl
  · rename_i hday
    have hday : d.day = daysInMonth d.year d.month := Nat.le_antisymm d.day_le (Nat.not_lt.1 hday)
    split at h
    · cases h
      rw [toOrdinal_eq, toOrdinal_eq]
      show daysBeforeYear d.year + daysBeforeMonth d.year (d.month + 1) + 1 = _
      rw [daysBeforeMonth_succ d.year d.month_pos]
      omega
    · rename_i hmonth
      have hmonth : d.month = 12 := Nat.le_antisymm d.month_le (Nat.not_lt.1 hmonth)
      split at h
      · cases h
        have hyear := daysBeforeMonth_succ d.year d.month_pos
        rw [hmonth, daysBeforeMonth_thirteen] at hyear
        rw [toOrdinal_eq, toOrdinal_eq]
        show daysBeforeYear (d.year + 1) + 0 + 1 = _
        rw [daysBeforeYear_succ d.year_pos, hyear, hday, hmonth]
        omega
      · cases h

/-- `date.max.toordinal()`. -/
def maxOrdinal : Nat := 3652059

theorem tomorrow_isSome {d : Date} (h : d.toOrdinal < maxOrdinal) : ∃ next, d.tomorrow = some next := by
  unfold tomorrow
  split
  · exact ⟨_, rfl⟩
  · rename_i hday
    have hday : d.day = daysInMonth d.year d.month := Nat.le_antisymm d.day_le (Nat.not_lt.1 hday)
    split
    · exact ⟨_, rfl⟩
    · rename_i hmonth
      have hmonth : d.month = 12 := Nat.le_antisymm d.month_le (Nat.not_lt.1 hmonth)
      split
      · exact ⟨_, rfl⟩
      · rename_i hyear
        have hyear : d.year = maxYear := Nat.le_antisymm d.year_le (Nat.not_lt.1 hyear)
        have hlast : daysBeforeYear maxYear + daysBeforeMonth maxYear 12 + daysInMonth maxYear 12 = maxOrdinal := by
          decide
        rw [toOrdinal_eq, hday, hmonth, hyear, hlast] at h
        exact absurd h (Nat.lt_irrefl _)

theorem addDays_isSome {n : Nat} : ∀ {d : Date}, d.toOrdinal + n ≤ maxOrdinal → ∃ later, d.addDays n = some later := by
  induction n with
  | zero => exact fun {d} _ => ⟨d, rfl⟩
  | succ n ih =>
    intro d h
    have hlt : d.toOrdinal < maxOrdinal := Nat.lt_of_lt_of_le (Nat.lt_add_of_pos_right (Nat.succ_pos n)) h
    obtain ⟨next, hnext⟩ := tomorrow_isSome hlt
    have hle : next.toOrdinal + n ≤ maxOrdinal := by
      rw [toOrdinal_tomorrow hnext]
      omega
    obtain ⟨later, hlater⟩ := ih hle
    exact ⟨later, by rw [addDays, hnext, Option.bind_some, hlater]⟩

theorem toOrdinal_addDays {n : Nat} : ∀ {d later : Date}, d.addDays n = some later →
    later.toOrdinal = d.toOrdinal + n := by
  induction n with
  | zero =>
    intro d later h
    rw [← Option.some.inj h]
    rfl
  | succ n ih =>
    intro d later h
    obtain ⟨next, hnext, hlater⟩ := Option.bind_eq_some_iff.1 h
    rw [ih hlater, toOrdinal_tomorrow hnext]
    omega

/-! ## Months -/

/-- The months, counted. -/
def monthIndex (d : Date) : Nat := 12 * d.year + d.month

theorem firstOfMonth_eq_iff {d e : Date} : d.firstOfMonth = e.firstOfMonth ↔ d.monthIndex = e.monthIndex := by
  have hd := d.month_pos
  have hd' := d.month_le
  have he := e.month_pos
  have he' := e.month_le
  constructor
  · intro h
    have hyear : d.firstOfMonth.year = e.firstOfMonth.year := congrArg Date.year h
    have hmonth : d.firstOfMonth.month = e.firstOfMonth.month := congrArg Date.month h
    have hyear : d.year = e.year := hyear
    have hmonth : d.month = e.month := hmonth
    unfold monthIndex
    omega
  · intro h
    unfold monthIndex at h
    exact ext (show d.year = e.year by omega) (show d.month = e.month by omega) rfl

theorem monthIndex_mono {d e : Date} (h : d ≤ e) : d.monthIndex ≤ e.monthIndex := by
  have h : Date.le d e := h
  have hd := d.month_le
  have he := e.month_pos
  unfold Date.le at h
  unfold monthIndex
  omega

theorem before_of_monthIndex_lt {d e : Date} (h : d.monthIndex < e.monthIndex) : d.Before e := by
  have hd := d.month_pos
  have he := e.month_le
  unfold monthIndex at h
  unfold Before
  omega

/-- **A date lies in a month exactly when** it is between the month's first day and its last. -/
theorem mem_month_iff {d e : Date} : d.firstOfMonth ≤ e ∧ e ≤ d.lastOfMonth ↔ e.monthIndex = d.monthIndex := by
  constructor
  · rintro ⟨hfirst, hlast⟩
    have hle : e.monthIndex ≤ d.lastOfMonth.monthIndex := monthIndex_mono hlast
    have hge : d.firstOfMonth.monthIndex ≤ e.monthIndex := monthIndex_mono hfirst
    exact Nat.le_antisymm hle hge
  · intro h
    have hd := d.month_pos
    have hd' := d.month_le
    have he := e.month_pos
    have he' := e.month_le
    unfold monthIndex at h
    have hyear : e.year = d.year := by omega
    have hmonth : e.month = d.month := by omega
    have hday := e.day_le
    rw [hyear, hmonth] at hday
    exact ⟨Or.inr ⟨hyear.symm, Or.inr ⟨hmonth.symm, e.day_pos⟩⟩, Or.inr ⟨hyear, Or.inr ⟨hmonth, hday⟩⟩⟩

/-- The day after the last of a month is the first of the next. -/
theorem tomorrow_lastOfMonth {d next : Date} (h : d.lastOfMonth.tomorrow = some next) :
    next.monthIndex = d.monthIndex + 1 ∧ next.firstOfMonth = next := by
  unfold tomorrow at h
  rw [dif_neg (show ¬ d.lastOfMonth.day < daysInMonth d.lastOfMonth.year d.lastOfMonth.month from Nat.lt_irrefl _)] at h
  split at h
  · cases h
    exact ⟨rfl, rfl⟩
  · rename_i hmonth
    have hmonth : d.month = 12 := Nat.le_antisymm d.month_le (Nat.not_lt.1 hmonth)
    split at h
    · cases h
      refine ⟨?_, rfl⟩
      show 12 * (d.year + 1) + 1 = 12 * d.year + d.month + 1
      omega
    · cases h

/-- **Before December 9999** a month is followed by another month's days. -/
theorem toOrdinal_lastOfMonth_le {d : Date} (h : d.year < maxYear ∨ d.month < 12) :
    d.lastOfMonth.toOrdinal + 31 ≤ maxOrdinal := by
  have hyears : daysBeforeYear maxYear = 3651694 := by decide
  have hmonths : daysBeforeMonth maxYear 12 = 334 := by decide
  by_cases hyear : d.year < maxYear
  · have hle := d.lastOfMonth.toOrdinal_le_year
    have hmono := daysBeforeYear_mono (Nat.le_add_left 1 d.year) hyear
    have hsame : d.lastOfMonth.year = d.year := rfl
    rw [hsame] at hle
    unfold maxOrdinal
    omega
  · have heq : d.year = maxYear := Nat.le_antisymm d.year_le (Nat.not_lt.1 hyear)
    have hle := d.lastOfMonth.toOrdinal_le_month
    have hmono := daysBeforeMonth_mono d.year (Nat.le_add_left 1 d.month) (h.resolve_left hyear)
    have hsame : d.lastOfMonth.year = d.year ∧ d.lastOfMonth.month = d.month := ⟨rfl, rfl⟩
    rw [hsame.1, hsame.2] at hle
    rw [heq] at hle hmono
    unfold maxOrdinal
    omega

end Date

end Python
