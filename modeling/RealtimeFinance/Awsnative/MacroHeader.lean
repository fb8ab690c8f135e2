import Mathlib.Data.List.Forall2
import RealtimeFinance.Awsnative.MacroCollector
/-!
# MacroHeader — what the header of an export is checked for

ALFRED names the value column after the series and its vintage.  `parse_alfred_csv` looks whether that name begins with
the id of the series it asked for, so it takes the column of a longer id or of another vintage for its own.  The rows it
then reads are the ones it should (`parseAlfredCsv_rows`).
-/
namespace Awsnative.Enrichment

open Python

/-- `<SERIES>_<VINTAGE>`, the vintage without its dashes. -/
def valueColumnOf (seriesId vintageDate : String) : List Char :=
  seriesId.toList ++ '_' :: vintageDate.toList.filter (fun c => decide (c ≠ '-'))

/-- A data row with a value, and a date not before `since`. -/
def keptRow (since : Option String) : List (List Char) → Bool
  | [date, text] => !(strip text).isEmpty && since.all (fun s => !decide (strip date < s.toList))
  | _            => false

/-- The observation of a row: its texts, apart from the blanks around them. -/
def ObservationOfRow (seriesId vintageDate : String) (row : List (List Char)) (o : MacroObservation) : Prop :=
  ∃ date text, row = [date, text] ∧ o.seriesId = seriesId ∧ o.vintageDate = vintageDate ∧
    o.observationDate.toList = strip date ∧ o.value.toList = strip text

/-- **The header is checked**: an export is read only when its value column is the one asked for, another one is a
`ValueError`, and what is read is one observation of each row that counts. -/
structure ChecksHeader (text : List Char) (seriesId vintageDate : String) (since : Option String) : Prop where
  reads : ∀ observations, parseAlfredCsv text seriesId vintageDate since = .ok observations →
    ∃ date rows, Csv.reader text = ⟨[date, valueColumnOf seriesId vintageDate] :: rows, none⟩ ∧
      List.Forall₂ (ObservationOfRow seriesId vintageDate) (rows.filter (keptRow since)) observations
  rejects : ∀ date valueColumn rows error, Csv.reader text = ⟨[date, valueColumn] :: rows, error⟩ →
    valueColumn ≠ valueColumnOf seriesId vintageDate →
      parseAlfredCsv text seriesId vintageDate since = .error (.anotherSeries seriesId valueColumn)

/-! ## Rows -/

section Rows

variable {seriesId vintageDate : String} {since : Option String}

theorem keptRow_eq_isSome (row : List (List Char)) :
    keptRow since row = (observationOf seriesId vintageDate since row).isSome := by
  rcases row with _ | ⟨date, _ | ⟨text, _ | ⟨_, _⟩⟩⟩
  · rfl
  · rfl
  · unfold keptRow observationOf isBefore
    by_cases htext : (strip text).isEmpty = true
    · simp [htext]
    · cases since with
      | none => simp [htext]
      | some s => by_cases hbefore : strip date < s.toList <;> simp [htext, hbefore]
  · rfl

theorem observationOfRow_of_eq {row : List (List Char)} {o : MacroObservation}
    (h : observationOf seriesId vintageDate since row = some o) : ObservationOfRow seriesId vintageDate row o := by
  unfold observationOf at h
  split at h
  · rename_i date text
    simp only at h
    split at h
    · cases h
    · split at h
      · cases h
      · cases h
        exact ⟨date, text, rfl, rfl, rfl, String.toList_ofList, String.toList_ofList⟩
  · cases h

/-- **One observation of each row that counts**, in order. -/
theorem parseAlfredCsv_rows (rows : List (List (List Char))) :
    List.Forall₂ (ObservationOfRow seriesId vintageDate) (rows.filter (keptRow since))
      (rows.filterMap (observationOf seriesId vintageDate since)) := by
  induction rows with
  | nil => exact .nil
  | cons row rows ih =>
    have hkept : keptRow since row = (observationOf seriesId vintageDate since row).isSome := keptRow_eq_isSome row
    cases ho : observationOf seriesId vintageDate since row with
    | none =>
      rw [ho] at hkept
      rwa [List.filter_cons_of_neg (by simp [hkept]), List.filterMap_cons_none ho]
    | some o =>
      rw [ho] at hkept
      rw [List.filter_cons_of_pos hkept, List.filterMap_cons_some ho]
      exact .cons (observationOfRow_of_eq ho) ih

end Rows

/-! ## The header -/

/-- What is read under a header of two columns. -/
theorem parseAlfredCsv_eq (seriesId vintageDate : String) (since : Option String) {text date valueColumn : List Char}
    {rows : List (List (List Char))} {error : Option Csv.Error} :
    Csv.reader text = ⟨[date, valueColumn] :: rows, error⟩ → parseAlfredCsv text seriesId vintageDate since =
      if seriesId.toList <+: valueColumn then
        match error with
        | some e => .error (.csv e)
        | none   => .ok (rows.filterMap (observationOf seriesId vintageDate since))
      else .error (.anotherSeries seriesId valueColumn) := by
  intro h
  unfold parseAlfredCsv
  rw [h]
  by_cases hprefix : seriesId.toList <+: valueColumn
  · rw [if_pos hprefix]
    exact if_pos (List.isPrefixOf_iff_prefix.2 hprefix)
  · rw [if_neg hprefix]
    exact if_neg (mt List.isPrefixOf_iff_prefix.1 hprefix)

/-- An export is read only under a header of two columns, the second of which begins with the id. -/
theorem header_of_ok {text : List Char} {seriesId vintageDate : String} {since : Option String}
    {observations : List MacroObservation} (h : parseAlfredCsv text seriesId vintageDate since = .ok observations) :
    ∃ date valueColumn rows, Csv.reader text = ⟨[date, valueColumn] :: rows, none⟩ ∧ seriesId.toList <+: valueColumn ∧
      observations = rows.filterMap (observationOf seriesId vintageDate since) := by
  cases hread : Csv.reader text with
  | mk records error =>
    rcases records with _ | ⟨header, rows⟩
    · unfold parseAlfredCsv at h
      rw [hread] at h
      cases error <;> cases h
    · rcases header with _ | ⟨date, _ | ⟨valueColumn, _ | ⟨_, _⟩⟩⟩
      · unfold parseAlfredCsv at h
        rw [hread] at h
        cases h
      · unfold parseAlfredCsv at h
        rw [hread] at h
        cases h
      · rw [parseAlfredCsv_eq seriesId vintageDate since hread] at h
        split at h
        · rename_i hprefix
          cases error with
          | some e => cases h
          | none =>
            cases h
            exact ⟨date, valueColumn, rows, rfl, hprefix, rfl⟩
        · cases h
      · unfold parseAlfredCsv at h
        rw [hread] at h
        cases h

/-- **The header is checked exactly when** it is not a value column that begins with the id and is another one. -/
theorem checksHeader_iff (text : List Char) (seriesId vintageDate : String) (since : Option String) :
    ChecksHeader text seriesId vintageDate since ↔ ¬ ∃ date valueColumn rows error,
      Csv.reader text = ⟨[date, valueColumn] :: rows, error⟩ ∧ seriesId.toList <+: valueColumn ∧
        valueColumn ≠ valueColumnOf seriesId vintageDate := by
  constructor
  · rintro h ⟨date, valueColumn, rows, error, hread, hprefix, hother⟩
    have hrejects := h.rejects date valueColumn rows error hread hother
    rw [parseAlfredCsv_eq seriesId vintageDate since hread, if_pos hprefix] at hrejects
    cases error <;> cases hrejects
  · intro h
    refine ⟨fun observations hok => ?_, fun date valueColumn rows error hread hother => ?_⟩
    · obtain ⟨date, valueColumn, rows, hread, hprefix, rfl⟩ := header_of_ok hok
      have hexact : valueColumn = valueColumnOf seriesId vintageDate := by
        by_contra hother
        exact h ⟨date, valueColumn, rows, none, hread, hprefix, hother⟩
      rw [← hexact]
      exact ⟨date, rows, hread, parseAlfredCsv_rows rows⟩
    · rw [parseAlfredCsv_eq seriesId vintageDate since hread,
        if_neg (fun hprefix => h ⟨date, valueColumn, rows, error, hread, hprefix, hother⟩)]

/-- The yields of twenty years, taken for those of two. -/
theorem twenty_years_for_two : ¬ ∀ (text : List Char) (seriesId vintageDate : String) (since : Option String),
    ChecksHeader text seriesId vintageDate since := by
  intro h
  have hplain : ∀ record ∈ [["observation_date".toList, "DGS20_20260115".toList], ["2026-01-14".toList, "4.15".toList]],
      Csv.Plain record :=
    List.forall_mem_cons.2 ⟨Csv.plain_of_all (by decide) (by decide) (by decide +kernel),
      List.forall_mem_singleton.2 (Csv.plain_of_all (by decide) (by decide) (by decide +kernel))⟩
  have hread := Csv.reader_writeRecords _ hplain
  obtain ⟨date, rows, hasked, -⟩ := (h _ "DGS2" "2026-01-15" none).reads _
    (parseAlfredCsv_export "2026-01-15" none (by decide) hplain)
  rw [hread, Csv.Records.mk.injEq, List.cons.injEq, List.cons.injEq, List.cons.injEq] at hasked
  exact absurd hasked.1.1.2.1 (by decide +kernel)

end Awsnative.Enrichment
