import Mathlib.Order.Bounds.Defs
import RealtimeFinance.Backfill.StagingKeys
/-!
# Published — what a plan asks for, and what is there

The archive has a day's file the day after it, and a month's on the first Monday after the month.  A month is taken whole
only when it has been over for a week, and every week has a Monday (`firstMondayAfter_le`), so a monthly file of a plan is
there.  Of a day the plan asks nothing: the daily files of a window that reaches today are those of days still to end
(`plan_published_iff`).
-/
namespace Backfill

open Python Python.Date

/-- The first Monday after a day, by ordinals: `toordinal() % 7` is one on Mondays. -/
def firstMondayAfter (n : Nat) : Nat := n + 1 + (7 - n % 7) % 7

/-- The archive has the file today. -/
def ArchiveFile.Published (f : ArchiveFile) (today : Date) : Prop :=
  match f.granularity with
  | .daily   => f.dt < today.toOrdinal
  | .monthly => ∃ day : Date, f.dt = day.firstOfMonth.toOrdinal ∧
      firstMondayAfter day.lastOfMonth.toOrdinal ≤ today.toOrdinal

theorem firstMondayAfter_isLeast (n : Nat) : IsLeast {m | n < m ∧ m % 7 = 1} (firstMondayAfter n) := by
  unfold firstMondayAfter
  constructor
  · show n < _ ∧ _ % 7 = 1
    omega
  · rintro m ⟨hlt, hmonday⟩
    omega

/-- **A week after a month's last day its first Monday has come**, whatever day the month ended on. -/
theorem firstMondayAfter_le (n : Nat) : firstMondayAfter n ≤ n + monthlyPublicationLagDays := by
  unfold firstMondayAfter monthlyPublicationLagDays
  omega

theorem lastOfMonth_ge (day : Date) : day ≤ day.lastOfMonth := (mem_month_iff.2 rfl).2

section Window

variable {tier : Tier} {start stop today : Date}

/-- **The file of a day is there exactly when** its month is taken whole or the day is over. -/
theorem fileOn_published_iff (pair : String × String) (day : Date) :
    (fileOn tier start stop today pair day).Published today ↔
      TakenWhole start stop today (day.firstOfMonth, day.lastOfMonth) ∨ day.toOrdinal < today.toOrdinal := by
  unfold fileOn
  by_cases hwhole : TakenWhole start stop today (day.firstOfMonth, day.lastOfMonth)
  · rw [if_pos hwhole]
    refine iff_of_true ⟨day, rfl, (firstMondayAfter_le _).trans ?_⟩ (Or.inl hwhole)
    exact hwhole.2.2
  · rw [if_neg hwhole]
    refine Iff.trans ?_ (or_iff_right hwhole).symm
    show ((day.toOrdinal : Nat) : Int) < (today.toOrdinal : Nat) ↔ _
    omega

/-- A day that is not over is in no month that is taken whole. -/
theorem not_takenWhole {day : Date} (h : today.toOrdinal ≤ day.toOrdinal) :
    ¬ TakenWhole start stop today (day.firstOfMonth, day.lastOfMonth) := by
  rintro ⟨-, -, hlag⟩
  have hlast := le_iff_toOrdinal_le.1 (lastOfMonth_ge day)
  have hlag : day.lastOfMonth.toOrdinal + 7 ≤ today.toOrdinal := hlag
  omega

/-- The files of a plan are those of the days of its window. -/
theorem mem_filesForWindow {pairs : List (String × String)} {files : List ArchiveFile} (hwindow : start ≤ stop)
    (h : filesForWindow pairs tier start stop today = some files) (f : ArchiveFile) :
    f ∈ files ↔ ∃ pair ∈ pairs, ∃ day : Date, start ≤ day ∧ day ≤ stop ∧ f = fileOn tier start stop today pair day := by
  obtain ⟨hstop, hperm⟩ := filesForWindow_perm hwindow h
  rw [hperm.mem_iff, List.mem_flatMap]
  rcases hstop with rfl | hstop
  · simp
  · simp only [mem_pairFiles tier start today hstop]

/-- A window that reaches today has a file that is not there yet, that of its last day. -/
theorem exists_unpublished {pairs : List (String × String)} {files : List ArchiveFile} (hwindow : start ≤ stop)
    (hpairs : pairs ≠ []) (hreaches : today.toOrdinal ≤ stop.toOrdinal)
    (h : filesForWindow pairs tier start stop today = some files) : ∃ f ∈ files, ¬ f.Published today := by
  obtain ⟨pair, hpair⟩ := List.exists_mem_of_ne_nil pairs hpairs
  refine ⟨fileOn tier start stop today pair stop, ?_, ?_⟩
  · exact (mem_filesForWindow hwindow h _).2 ⟨pair, hpair, stop, hwindow, le_iff_toOrdinal_le.2 le_rfl, rfl⟩
  · rw [fileOn_published_iff]
    exact not_or.2 ⟨not_takenWhole hreaches, Nat.not_lt.2 hreaches⟩

/-- **A plan names only files that are there exactly when** its window ended before today, or it names none. -/
theorem plan_published_iff {pairs : List (String × String)} {files : List ArchiveFile}
    (h : filesForWindow pairs tier start stop today = some files) :
    (∀ f ∈ files, f.Published today) ↔ stop.toOrdinal < today.toOrdinal ∨ ¬ start ≤ stop ∨ pairs = [] := by
  by_cases hwindow : start ≤ stop
  · constructor
    · intro hall
      by_cases hpairs : pairs = []
      · exact Or.inr (Or.inr hpairs)
      · refine Or.inl (Nat.not_le.1 (fun hreaches => ?_))
        obtain ⟨f, hf, hnot⟩ := exists_unpublished hwindow hpairs hreaches h
        exact hnot (hall f hf)
    · rintro (hover | hnot | rfl) f hf
      · obtain ⟨pair, -, day, -, hle, rfl⟩ := (mem_filesForWindow hwindow h f).1 hf
        have hday := le_iff_toOrdinal_le.1 hle
        exact (fileOn_published_iff pair day).2 (Or.inr (by omega))
      · exact absurd hwindow hnot
      · obtain ⟨pair, hpair, -⟩ := (mem_filesForWindow hwindow h f).1 hf
        cases hpair
  · have hnone : filesForWindow pairs tier start stop today = some [] := if_neg hwindow
    rw [hnone] at h
    cases h
    exact iff_of_true (by simp) (Or.inr (Or.inl hwindow))

end Window

/-! ## An autumn, and one day -/

def firstOfAugust : Date := (Date.ofParts 2024 8 1).getD octoberDay

def thirdOfOctober : Date := (Date.ofParts 2024 10 3).getD octoberDay

/-- From August to the day before: August is taken whole, and September, over for three days, day by day. -/
theorem plan_published_iff_autumn : ∃ files,
    filesForWindow [("BTC-USD", "BTCUSDT")] .hot firstOfAugust thirdOfOctober octoberDay = some files ∧
      (∃ f ∈ files, f.granularity = .monthly) ∧ (∃ f ∈ files, f.granularity = .daily) ∧
      ∀ f ∈ files, f.Published octoberDay := by
  have hwindow : firstOfAugust ≤ thirdOfOctober := by decide
  have hfiles := filesForWindow_eq .hot firstOfAugust octoberDay [("BTC-USD", "BTCUSDT")]
    (show thirdOfOctober.year < maxYear ∨ thirdOfOctober.month < 12 by decide) hwindow
  have hmem : ∀ day, firstOfAugust ≤ day → day ≤ thirdOfOctober → ∃ f ∈ _, f =
      fileOn .hot firstOfAugust thirdOfOctober octoberDay ("BTC-USD", "BTCUSDT") day := fun day hstart hstop =>
    ⟨_, (mem_filesForWindow hwindow hfiles _).2 ⟨_, List.mem_singleton_self _, day, hstart, hstop, rfl⟩, rfl⟩
  refine ⟨_, hfiles, ?_, ?_, (plan_published_iff hfiles).2 (Or.inl (by decide +kernel))⟩
  · obtain ⟨f, hf, rfl⟩ := hmem firstOfAugust (by decide) (by decide)
    exact ⟨_, hf, by decide +kernel⟩
  · obtain ⟨f, hf, rfl⟩ := hmem thirdOfOctober (by decide) (by decide)
    exact ⟨_, hf, by decide +kernel⟩

/-- A day planned while it lasts. -/
theorem plan_today_unpublished : ∃ files,
    filesForWindow [("BTC-USD", "BTCUSDT")] .hot octoberDay octoberDay octoberDay = some files ∧
      ¬ ∀ f ∈ files, f.Published octoberDay := by
  have hstop : octoberDay.year < maxYear ∨ octoberDay.month < 12 := by decide
  have hfiles := filesForWindow_eq .hot octoberDay octoberDay [("BTC-USD", "BTCUSDT")] hstop (by decide)
  obtain ⟨f, hf, hnot⟩ := exists_unpublished (by decide) (by simp) le_rfl hfiles
  exact ⟨_, hfiles, fun hall => hnot (hall f hf)⟩

end Backfill
