import Mathlib.Algebra.Group.Nat.Defs
import RealtimeFinance.Python.Ordinal
/-!
# DateText — `%Y-%m` and `%Y-%m-%d` name a month and a day

The zeros before a number do not change what it reads as, and the parts of a date fit their widths.  So a text of seven
characters names one month and a text of ten one day, and no text ends in both.
-/
namespace Python
namespace Date

theorem padded_reads (width n : Nat) : Nat.ofDigitChars 10 (padded width n).toList 0 = n := by
  unfold padded
  rw [String.toList_ofList, Nat.ofDigitChars_append, Nat.ofDigitChars_replicate_zero, Nat.mul_zero,
    Nat.ofDigitChars_toDigits (by decide) (by decide)]

theorem padded_injective {width a b : Nat} (h : (padded width a).toList = (padded width b).toList) : a = b := by
  rw [← padded_reads width a, h, padded_reads]

theorem length_padded {width n : Nat} (hwidth : 0 < width) (h : n < 10 ^ width) :
    (padded width n).toList.length = width := by
  have hfits := (Nat.length_toDigits_le_iff (by decide) hwidth).2 h
  unfold padded
  rw [String.toList_ofList, List.length_append, List.length_replicate]
  omega

section Parts

variable (d : Date)

theorem length_yearText : (padded 4 d.year).toList.length = 4 := by
  have hyear := d.year_le
  unfold maxYear at hyear
  exact length_padded (by decide) (by omega)

theorem length_monthPart : (padded 2 d.month).toList.length = 2 := by
  have hmonth := d.month_le
  exact length_padded (by decide) (by omega)

theorem daysInMonth_le (year month : Nat) : daysInMonth year month ≤ 31 := by
  unfold daysInMonth
  split
  · split <;> decide
  all_goals decide

theorem length_dayPart : (padded 2 d.day).toList.length = 2 := by
  have hday := Nat.le_trans d.day_le (daysInMonth_le d.year d.month)
  exact length_padded (by decide) (by omega)

theorem toList_monthText : d.monthText.toList = (padded 4 d.year).toList ++ '-' :: (padded 2 d.month).toList := by
  unfold monthText
  rw [String.toList_append, String.toList_append, List.append_assoc]
  rfl

theorem toList_dayText : d.dayText.toList = d.monthText.toList ++ '-' :: (padded 2 d.day).toList := by
  unfold dayText
  rw [String.toList_append, String.toList_append, List.append_assoc]
  rfl

theorem length_monthText : d.monthText.toList.length = 7 := by
  rw [toList_monthText, List.length_append, List.length_cons, length_yearText, length_monthPart]

theorem length_dayText : d.dayText.toList.length = 10 := by
  rw [toList_dayText, List.length_append, List.length_cons, length_monthText, length_dayPart]

end Parts

/-- **A month has its text to itself.** -/
theorem monthText_eq_iff {d e : Date} : d.monthText.toList = e.monthText.toList ↔ d.firstOfMonth = e.firstOfMonth := by
  constructor
  · intro h
    rw [toList_monthText, toList_monthText] at h
    obtain ⟨hyear, hmonth⟩ := List.append_inj h (by rw [length_yearText, length_yearText])
    exact ext (padded_injective hyear) (padded_injective (List.cons.inj hmonth).2) rfl
  · intro h
    have hyear : d.year = e.year := (congrArg Date.year h :)
    have hmonth : d.month = e.month := (congrArg Date.month h :)
    rw [toList_monthText, toList_monthText, hyear, hmonth]

/-- **A day has its text to itself.** -/
theorem dayText_injective {d e : Date} (h : d.dayText.toList = e.dayText.toList) : d = e := by
  rw [toList_dayText, toList_dayText] at h
  obtain ⟨hmonth, hday⟩ := List.append_inj h (by rw [length_monthText, length_monthText])
  have hfirst := monthText_eq_iff.1 hmonth
  have hyear : d.year = e.year := (congrArg Date.year hfirst :)
  have hmonth : d.month = e.month := (congrArg Date.month hfirst :)
  exact ext hyear hmonth (padded_injective (List.cons.inj hday).2)

/-- **No text ends in a month and in a day**: the sixth character from the end is a digit of a year, or a dash. -/
theorem monthText_ne_dayText {d e : Date} (xs ys : List Char) : xs ++ d.monthText.toList ≠ ys ++ e.dayText.toList := by
  intro h
  have hmonth : xs ++ d.monthText.toList = (xs ++ d.monthText.toList.take 1) ++ d.monthText.toList.drop 1 := by
    rw [List.append_assoc, List.take_append_drop]
  have hday : ys ++ e.dayText.toList = (ys ++ e.dayText.toList.take 4) ++ e.dayText.toList.drop 4 := by
    rw [List.append_assoc, List.take_append_drop]
  rw [hmonth, hday] at h
  have hends := (List.append_inj' h (by rw [List.length_drop, List.length_drop, length_monthText, length_dayText])).2
  have hyear := length_yearText d
  rw [toList_monthText, toList_dayText, toList_monthText, List.append_assoc, List.drop_left' (length_yearText e),
    List.drop_append_of_le_length (by omega)] at hends
  cases hdrop : (padded 4 d.year).toList.drop 1 with
  | nil =>
    have hlength := congrArg List.length hdrop
    rw [List.length_drop, hyear] at hlength
    cases hlength
  | cons c cs =>
    rw [hdrop] at hends
    have hc : c = '-' := (List.cons.inj hends).1
    have hdigit : c.isDigit = true := isDigit_of_mem_padded (List.mem_of_mem_drop (by rw [hdrop]; exact List.mem_cons_self))
    rw [hc] at hdigit
    exact absurd hdigit (by decide)

end Date
end Python
