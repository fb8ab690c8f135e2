import Mathlib.Data.String.Basic
import RealtimeFinance.Backfill.Windows
import RealtimeFinance.Python.Ordinal
/-!
# WindowCover — a plan covers its window once

The days between two dates and the months that a window touches are counted by their ordinals and their indices.  A
month's files cover the days it shares with the window, each once, whether as one monthly file or as daily ones
(`filesForMonth_covers`), and a day lies in one month; so a plan covers each day of its window by one file of each pair
and no other day (`filesForWindow_covers`).
-/
namespace Backfill

open Python Python.Date

/-- The file holds the pair's rows of the day: a daily file those of its day, a monthly one those of its month. -/
def ArchiveFile.Covers (f : ArchiveFile) (pair : String × String) (day : Date) : Prop :=
  f.instrumentId = pair.1 ∧ f.venueSymbol = pair.2 ∧
  match f.granularity with
  | .daily   => f.dt = day.toOrdinal
  | .monthly => f.dt = day.firstOfMonth.toOrdinal

instance (f : ArchiveFile) (pair : String × String) (day : Date) : Decidable (f.Covers pair day) := by
  unfold ArchiveFile.Covers
  cases f.granularity <;> infer_instance

theorem fileOf_daily_covers {tier : Tier} {pair p : String × String} {period : String} {dt day : Date} :
    (fileOf tier pair .daily period dt).Covers p day ↔ pair = p ∧ dt = day := by
  constructor
  · rintro ⟨hid, hsymbol, hdt⟩
    have hdt : ((dt.toOrdinal : Nat) : Int) = (day.toOrdinal : Nat) := hdt
    exact ⟨Prod.ext hid hsymbol, toOrdinal_injective (Int.ofNat.inj hdt)⟩
  · rintro ⟨rfl, rfl⟩
    exact ⟨rfl, rfl, rfl⟩

theorem fileOf_monthly_covers {tier : Tier} {pair p : String × String} {period : String} {dt day : Date} :
    (fileOf tier pair .monthly period dt).Covers p day ↔ pair = p ∧ dt = day.firstOfMonth := by
  constructor
  · rintro ⟨hid, hsymbol, hdt⟩
    have hdt : ((dt.toOrdinal : Nat) : Int) = (day.firstOfMonth.toOrdinal : Nat) := hdt
    exact ⟨Prod.ext hid hsymbol, toOrdinal_injective (Int.ofNat.inj hdt)⟩
  · rintro ⟨rfl, rfl⟩
    exact ⟨rfl, rfl, rfl⟩

/-! ## The two loops -/

/-- **The days between two dates**, by their ordinals. -/
theorem daysFrom_ordinals {stop : Date} (hstop : stop.toOrdinal < maxOrdinal) (n : Nat) : ∀ cursor : Date,
    ∃ days, daysFrom stop n cursor = some days ∧
      days.map Date.toOrdinal = List.range' cursor.toOrdinal (min n (stop.toOrdinal + 1 - cursor.toOrdinal)) := by
  induction n with
  | zero => exact fun cursor => ⟨[], rfl, by simp⟩
  | succ n ih =>
    intro cursor
    by_cases hle : cursor ≤ stop
    · have hord := le_iff_toOrdinal_le.1 hle
      obtain ⟨next, hnext⟩ := tomorrow_isSome (Nat.lt_of_le_of_lt hord hstop)
      obtain ⟨days, hdays, hmap⟩ := ih next
      refine ⟨cursor :: days, ?_, ?_⟩
      · simp [daysFrom, hle, hnext, hdays]
      · rw [List.map_cons, hmap, toOrdinal_tomorrow hnext,
          show min (n + 1) (stop.toOrdinal + 1 - cursor.toOrdinal) =
            min n (stop.toOrdinal + 1 - (cursor.toOrdinal + 1)) + 1 by omega, List.range'_succ]
    · have hord := toOrdinal_lt (Date.not_le.1 hle)
      refine ⟨[], by simp [daysFrom, hle], ?_⟩
      rw [show stop.toOrdinal + 1 - cursor.toOrdinal = 0 by omega, Nat.min_zero]
      rfl

theorem daysBetween_ordinals (start : Date) {stop : Date} (hstop : stop.toOrdinal < maxOrdinal) :
    ∃ days, daysBetween start stop = some days ∧
      days.map Date.toOrdinal = List.range' start.toOrdinal (stop.toOrdinal + 1 - start.toOrdinal) := by
  obtain ⟨days, hdays, hmap⟩ := daysFrom_ordinals hstop (stop.toOrdinal + 1 - start.toOrdinal) start
  rw [Nat.min_self] at hmap
  exact ⟨days, hdays, hmap⟩

/-- Every day between the two is there once. -/
theorem countP_daysBetween {start stop : Date} {days : List Date}
    (hmap : days.map Date.toOrdinal = List.range' start.toOrdinal (stop.toOrdinal + 1 - start.toOrdinal)) (day : Date) :
    days.countP (fun d => decide (d = day)) = if start ≤ day ∧ day ≤ stop then 1 else 0 := by
  have hcount : days.countP (fun d => decide (d = day)) = (days.map Date.toOrdinal).count day.toOrdinal := by
    rw [List.count, List.countP_map]
    refine List.countP_congr (fun d _ => ?_)
    rw [decide_eq_true_eq, Function.comp_apply, beq_iff_eq]
    exact ⟨fun h => h ▸ rfl, toOrdinal_injective⟩
  rw [hcount, hmap, List.Nodup.count List.nodup_range']
  refine if_congr ?_ rfl rfl
  rw [List.mem_range'_1, le_iff_toOrdinal_le, le_iff_toOrdinal_le]
  omega

/-- The month of a date that begins it is touched exactly when its first day is not past the window. -/
theorem first_le_iff {cursor stop : Date} (hfirst : cursor.firstOfMonth = cursor) :
    cursor ≤ stop ↔ cursor.monthIndex ≤ stop.monthIndex := by
  constructor
  · exact monthIndex_mono
  · intro h
    rcases Nat.lt_or_eq_of_le h with hlt | heq
    · have hbefore := toOrdinal_lt (before_of_monthIndex_lt hlt)
      exact le_iff_toOrdinal_le.2 (Nat.le_of_lt hbefore)
    · have hmem := (mem_month_iff (d := cursor)).2 heq.symm
      rw [hfirst] at hmem
      exact hmem.1

/-- **The months a window touches**, by their indices. -/
theorem monthsFrom_indices {stop : Date} (hstop : stop.year < maxYear ∨ stop.month < 12) (n : Nat) :
    ∀ cursor : Date, cursor.firstOfMonth = cursor → ∃ months, monthsFrom stop n cursor = some months ∧
      (∀ month ∈ months, month.1.firstOfMonth = month.1 ∧ month.2 = month.1.lastOfMonth) ∧
      months.map (fun month => month.1.monthIndex) =
        List.range' cursor.monthIndex (min n (stop.monthIndex + 1 - cursor.monthIndex)) := by
  induction n with
  | zero => exact fun cursor _ => ⟨[], rfl, by simp, by simp⟩
  | succ n ih =>
    intro cursor hfirst
    by_cases hle : cursor ≤ stop
    · have hindex := monthIndex_mono hle
      have hbefore : cursor.year < maxYear ∨ cursor.month < 12 := by
        have hcursor := cursor.month_le
        have hyear := stop.year_le
        have hmonth := stop.month_le
        unfold monthIndex at hindex
        omega
      have hlast := toOrdinal_lastOfMonth_le hbefore
      obtain ⟨next, hnext⟩ := tomorrow_isSome (show cursor.lastOfMonth.toOrdinal < maxOrdinal by omega)
      obtain ⟨hnextIndex, hnextFirst⟩ := tomorrow_lastOfMonth hnext
      obtain ⟨months, hmonths, hshape, hmap⟩ := ih next hnextFirst
      refine ⟨(cursor, cursor.lastOfMonth) :: months, ?_, ?_, ?_⟩
      · simp [monthsFrom, hle, hnext, hmonths]
      · intro month hmonth
        rcases List.mem_cons.1 hmonth with rfl | hmonth
        · exact ⟨hfirst, rfl⟩
        · exact hshape month hmonth
      · rw [List.map_cons, hmap, hnextIndex,
          show min (n + 1) (stop.monthIndex + 1 - cursor.monthIndex) =
            min n (stop.monthIndex + 1 - (cursor.monthIndex + 1)) + 1 by omega, List.range'_succ]
    · have hindex := mt (first_le_iff hfirst).2 hle
      refine ⟨[], by simp [monthsFrom, hle], by simp, ?_⟩
      rw [show stop.monthIndex + 1 - cursor.monthIndex = 0 by omega, Nat.min_zero]
      rfl

theorem monthsBetween_indices (start : Date) {stop : Date} (hstop : stop.year < maxYear ∨ stop.month < 12) :
    ∃ months, monthsBetween start stop = some months ∧
      (∀ month ∈ months, month.1.firstOfMonth = month.1 ∧ month.2 = month.1.lastOfMonth) ∧
      months.map (fun month => month.1.monthIndex) =
        List.range' start.monthIndex (stop.monthIndex + 1 - start.monthIndex) := by
  obtain ⟨months, hmonths, hshape, hmap⟩ :=
    monthsFrom_indices hstop (12 * (stop.year + 1 - start.year)) start.firstOfMonth rfl
  refine ⟨months, hmonths, hshape, ?_⟩
  have hturns : stop.monthIndex + 1 - start.monthIndex ≤ 12 * (stop.year + 1 - start.year) := by
    have := stop.month_le
    have := start.month_pos
    unfold monthIndex
    omega
  have hindex : start.firstOfMonth.monthIndex = start.monthIndex := rfl
  rw [hmap, hindex, Nat.min_eq_right hturns]

/-- A month of the window is there once. -/
theorem countP_monthsBetween {start stop : Date} {months : List (Date × Date)}
    (hmap : months.map (fun month => month.1.monthIndex) =
      List.range' start.monthIndex (stop.monthIndex + 1 - start.monthIndex)) (day : Date) :
    months.countP (fun month => decide (day.monthIndex = month.1.monthIndex)) =
      if start.monthIndex ≤ day.monthIndex ∧ day.monthIndex ≤ stop.monthIndex then 1 else 0 := by
  have hcount : months.countP (fun month => decide (day.monthIndex = month.1.monthIndex)) =
      (months.map (fun month => month.1.monthIndex)).count day.monthIndex := by
    rw [List.count, List.countP_map]
    refine List.countP_congr (fun month _ => ?_)
    rw [decide_eq_true_eq, Function.comp_apply, beq_iff_eq]
    exact eq_comm
  rw [hcount, hmap, List.Nodup.count List.nodup_range']
  refine if_congr ?_ rfl rfl
  rw [List.mem_range'_1]
  omega

/-! ## One month -/

/-- The window has the whole month, and it has been over for a week. -/
def TakenWhole (start stop today : Date) (month : Date × Date) : Prop :=
  start ≤ month.1 ∧ month.2 ≤ stop ∧ month.2.toOrdinal + monthlyPublicationLagDays ≤ today.toOrdinal

instance (start stop today : Date) (month : Date × Date) : Decidable (TakenWhole start stop today month) :=
  inferInstanceAs (Decidable (_ ∧ _ ∧ _))

/-- **A month is one file or a file a day.** -/
theorem filesForMonth_eq (tier : Tier) (start stop today : Date) (pair : String × String) {month : Date × Date}
    (hlast : month.2 = month.1.lastOfMonth) (hbefore : month.1.year < maxYear ∨ month.1.month < 12) :
    (TakenWhole start stop today month ∧ filesForMonth tier start stop today pair month =
      some [fileOf tier pair .monthly month.1.monthText month.1]) ∨
    ¬ TakenWhole start stop today month ∧ ∃ days : List Date, filesForMonth tier start stop today pair month =
        some (days.map (fun day => fileOf tier pair .daily day.dayText day)) ∧
      days.map Date.toOrdinal = List.range' (month.1.latest start).toOrdinal
        ((month.2.earliest stop).toOrdinal + 1 - (month.1.latest start).toOrdinal) := by
  have hend := toOrdinal_lastOfMonth_le hbefore
  rw [← hlast] at hend
  obtain ⟨lagged, hlagged⟩ := addDays_isSome (show month.2.toOrdinal + monthlyPublicationLagDays ≤ maxOrdinal by
    unfold monthlyPublicationLagDays
    omega)
  have hwhole : (decide (start ≤ month.1 ∧ month.2 ≤ stop) && decide (lagged ≤ today)) = true ↔
      TakenWhole start stop today month := by
    unfold TakenWhole
    rw [Bool.and_eq_true, decide_eq_true_eq, decide_eq_true_eq, le_iff_toOrdinal_le (a := lagged),
      toOrdinal_addDays hlagged, and_assoc]
  have hdef : filesForMonth tier start stop today pair month =
      if (decide (start ≤ month.1 ∧ month.2 ≤ stop) && decide (lagged ≤ today)) = true then
        some [fileOf tier pair .monthly month.1.monthText month.1]
      else (daysBetween (month.1.latest start) (month.2.earliest stop)).bind
        (fun days => some (days.map (fun day => fileOf tier pair .daily day.dayText day))) := by
    unfold filesForMonth
    rw [hlagged]
    rfl
  by_cases hmonthly : TakenWhole start stop today month
  · exact Or.inl ⟨hmonthly, by rw [hdef, if_pos (hwhole.2 hmonthly)]⟩
  · have hstop : (month.2.earliest stop).toOrdinal < maxOrdinal := by
      have hle := (le_earliest_iff.1 (le_iff_toOrdinal_le.2 (Nat.le_refl (month.2.earliest stop).toOrdinal))).1
      rw [le_iff_toOrdinal_le] at hle
      omega
    obtain ⟨days, hdays, hmap⟩ := daysBetween_ordinals (month.1.latest start) hstop
    refine Or.inr ⟨hmonthly, days, ?_, hmap⟩
    rw [hdef, if_neg (mt hwhole.1 hmonthly), hdays, Option.bind_some]

/-- The days of a month, by its first day and its last. -/
theorem mem_month {month : Date × Date} (hfirst : month.1.firstOfMonth = month.1) (hlast : month.2 = month.1.lastOfMonth)
    (day : Date) : day.monthIndex = month.1.monthIndex ↔ month.1 ≤ day ∧ day ≤ month.2 := by
  rw [hlast, ← mem_month_iff, hfirst]

/-- **A month's files cover the days it shares with the window**, each by one file of the pair, and no others. -/
theorem filesForMonth_covers (tier : Tier) (start stop today : Date) (pair : String × String)
    {month : Date × Date} (hfirst : month.1.firstOfMonth = month.1) (hlast : month.2 = month.1.lastOfMonth)
    (hbefore : month.1.year < maxYear ∨ month.1.month < 12) :
    ∃ files, filesForMonth tier start stop today pair month = some files ∧
      (∀ p day, files.countP (fun f => decide (f.Covers p day)) =
        if pair = p ∧ day.monthIndex = month.1.monthIndex ∧ start ≤ day ∧ day ≤ stop then 1 else 0) ∧
      ∀ f ∈ files, ∃ day, f = fileOf tier pair .daily day.dayText day ∨
        f = fileOf tier pair .monthly day.monthText day.firstOfMonth := by
  have hmonth := mem_month hfirst hlast
  rcases filesForMonth_eq tier start stop today pair hlast hbefore with ⟨hwhole, hfiles⟩ | ⟨-, days, hfiles, hmap⟩
  · refine ⟨_, hfiles, fun p day => ?_, fun f hf => ⟨month.1, Or.inr ?_⟩⟩
    · rw [List.countP_singleton]
      refine if_congr ?_ rfl rfl
      rw [decide_eq_true_eq, fileOf_monthly_covers]
      have hsame : month.1 = day.firstOfMonth ↔ day.monthIndex = month.1.monthIndex := by
        rw [← firstOfMonth_eq_iff, hfirst]
        exact eq_comm
      rw [hsame]
      refine and_congr_right (fun _ => ⟨fun hindex => ⟨hindex, ?_⟩, fun h => h.1⟩)
      obtain ⟨hge, hle⟩ := (hmonth day).1 hindex
      simp only [TakenWhole, le_iff_toOrdinal_le] at hwhole hge hle ⊢
      omega
    · rw [List.mem_singleton.1 hf, hfirst]
  · refine ⟨_, hfiles, fun p day => ?_, fun f hf => ?_⟩
    · rw [List.countP_map]
      by_cases hpair : pair = p
      · have hcount : days.countP ((fun f => decide (f.Covers p day)) ∘ fun d => fileOf tier pair .daily d.dayText d) =
            days.countP (fun d => decide (d = day)) := by
          refine List.countP_congr (fun d _ => ?_)
          rw [Function.comp_apply, decide_eq_true_eq, decide_eq_true_eq, fileOf_daily_covers]
          exact and_iff_right hpair
        rw [hcount, countP_daysBetween hmap]
        refine if_congr ?_ rfl rfl
        rw [latest_le_iff, le_earliest_iff, hmonth]
        exact ⟨fun ⟨⟨h1, h2⟩, h3, h4⟩ => ⟨hpair, ⟨h1, h3⟩, h2, h4⟩, fun ⟨_, ⟨h1, h3⟩, h2, h4⟩ => ⟨⟨h1, h2⟩, h3, h4⟩⟩
      · rw [if_neg (fun h => hpair h.1), List.countP_eq_zero]
        intro d _ hcovers
        rw [Function.comp_apply, decide_eq_true_eq, fileOf_daily_covers] at hcovers
        exact hpair hcovers.1
    · obtain ⟨day, -, rfl⟩ := List.mem_map.1 hf
      exact ⟨day, Or.inl rfl⟩

/-! ## The window -/

theorem mapM_eq_map_getD {α β : Type} {g : α → Option (List β)} : ∀ {xs : List α}, (∀ x ∈ xs, ∃ ys, g x = some ys) →
    xs.mapM g = some (xs.map (fun x => (g x).getD []))
  | [], _ => rfl
  | x :: xs, h => by
    obtain ⟨ys, hys⟩ := h x List.mem_cons_self
    rw [List.mapM_cons, hys, mapM_eq_map_getD (fun z hz => h z (List.mem_cons_of_mem _ hz))]
    simp [hys]

/-- Where every part has one of what is counted or none, the whole has as many as there are parts with one. -/
theorem countP_flatMap_eq {α β : Type} {f : α → List β} {p : β → Bool} {c : α → Bool} : ∀ {xs : List α},
    (∀ x ∈ xs, (f x).countP p = if c x = true then 1 else 0) → (xs.flatMap f).countP p = xs.countP c
  | [], _ => rfl
  | x :: xs, h => by
    rw [List.flatMap_cons, List.countP_append, h x List.mem_cons_self,
      countP_flatMap_eq (fun z hz => h z (List.mem_cons_of_mem _ hz)), List.countP_cons, Nat.add_comm]

/-- The body of the loop over pairs. -/
def pairFiles (tier : Tier) (start stop today : Date) (pair : String × String) : Option (List ArchiveFile) := do
  let months ← monthsBetween start stop
  let monthFiles ← months.mapM (filesForMonth tier start stop today pair)
  return monthFiles.flatten

section Plan

variable (tier : Tier) (start : Date) {stop : Date} (today : Date)

/-- The files of one pair, month by month. -/
theorem pairFiles_eq (hstop : stop.year < maxYear ∨ stop.month < 12) (pair : String × String) :
    ∃ months : List (Date × Date), pairFiles tier start stop today pair =
        some (months.flatMap (fun month => (filesForMonth tier start stop today pair month).getD [])) ∧
      (∀ month ∈ months, month.1.firstOfMonth = month.1 ∧ month.2 = month.1.lastOfMonth ∧
        (month.1.year < maxYear ∨ month.1.month < 12)) ∧
      months.map (fun month => month.1.monthIndex) =
        List.range' start.monthIndex (stop.monthIndex + 1 - start.monthIndex) := by
  obtain ⟨months, hmonths, hshape, hmap⟩ := monthsBetween_indices start hstop
  have hbefore : ∀ month ∈ months, month.1.year < maxYear ∨ month.1.month < 12 := by
    intro month hmonth
    have hmem : month.1.monthIndex ∈ months.map (fun month => month.1.monthIndex) := List.mem_map_of_mem hmonth
    rw [hmap, List.mem_range'_1] at hmem
    have := month.1.month_le
    have := stop.year_le
    have := stop.month_le
    unfold monthIndex at hmem
    omega
  have hall : months.mapM (filesForMonth tier start stop today pair) =
      some (months.map (fun month => (filesForMonth tier start stop today pair month).getD [])) := by
    refine mapM_eq_map_getD (fun month hmonth => ?_)
    obtain ⟨files, hfiles, -⟩ := filesForMonth_covers tier start stop today pair (hshape month hmonth).1
      (hshape month hmonth).2 (hbefore month hmonth)
    exact ⟨files, hfiles⟩
  refine ⟨months, ?_, fun month hmonth => ⟨(hshape month hmonth).1, (hshape month hmonth).2, hbefore month hmonth⟩, hmap⟩
  unfold pairFiles
  rw [hmonths]
  simp only [Option.bind_eq_bind, Option.bind_some, hall, List.flatMap_def]
  rfl

/-- **The files of one pair** cover each day of the window once. -/
theorem pairFiles_covers (hstop : stop.year < maxYear ∨ stop.month < 12) (pair : String × String) :
    ∃ files, pairFiles tier start stop today pair = some files ∧
      (∀ p day, files.countP (fun f => decide (f.Covers p day)) =
        if pair = p ∧ start ≤ day ∧ day ≤ stop then 1 else 0) ∧
      ∀ f ∈ files, ∃ day, f = fileOf tier pair .daily day.dayText day ∨
        f = fileOf tier pair .monthly day.monthText day.firstOfMonth := by
  obtain ⟨months, hfiles, hshape, hmap⟩ := pairFiles_eq tier start today hstop pair
  have hcovers := fun month (hmonth : month ∈ months) =>
    filesForMonth_covers tier start stop today pair (hshape month hmonth).1 (hshape month hmonth).2.1
      (hshape month hmonth).2.2
  refine ⟨_, hfiles, ?_, ?_⟩
  · intro p day
    by_cases hin : pair = p ∧ start ≤ day ∧ day ≤ stop
    · rw [if_pos hin]
      have heach : ∀ month ∈ months, ((filesForMonth tier start stop today pair month).getD []).countP
          (fun f => decide (f.Covers p day)) = if decide (day.monthIndex = month.1.monthIndex) = true then 1 else 0 := by
        intro month hmonth
        obtain ⟨files, hfiles, hcount, -⟩ := hcovers month hmonth
        rw [hfiles, Option.getD_some, hcount]
        refine if_congr ?_ rfl rfl
        rw [decide_eq_true_eq]
        exact ⟨fun h => h.2.1, fun h => ⟨hin.1, h, hin.2⟩⟩
      rw [countP_flatMap_eq heach, countP_monthsBetween hmap,
        if_pos ⟨monthIndex_mono hin.2.1, monthIndex_mono hin.2.2⟩]
    · rw [if_neg hin, List.countP_eq_zero]
      intro f hf
      obtain ⟨month, hmonth, hf⟩ := List.mem_flatMap.1 hf
      obtain ⟨files, hfiles, hcount, -⟩ := hcovers month hmonth
      rw [hfiles, Option.getD_some] at hf
      have hzero := hcount p day
      rw [if_neg (fun h => hin ⟨h.1, h.2.2⟩), List.countP_eq_zero] at hzero
      exact hzero f hf
  · intro f hf
    obtain ⟨month, hmonth, hf⟩ := List.mem_flatMap.1 hf
    obtain ⟨files, hfiles, -, hform⟩ := hcovers month hmonth
    rw [hfiles, Option.getD_some] at hf
    exact hform f hf

/-- The plan of a window is the files of every pair, in order of instrument and first day. -/
theorem filesForWindow_eq (pairs : List (String × String)) (hstop : stop.year < maxYear ∨ stop.month < 12)
    (hwindow : start ≤ stop) :
    filesForWindow pairs tier start stop today =
      some ((pairs.flatMap (fun pair => (pairFiles tier start stop today pair).getD [])).mergeSort sortsBefore) := by
  have hall : pairs.mapM (pairFiles tier start stop today) =
      some (pairs.map (fun pair => (pairFiles tier start stop today pair).getD [])) := by
    refine mapM_eq_map_getD (fun pair _ => ?_)
    obtain ⟨files, hfiles, -⟩ := pairFiles_covers tier start today hstop pair
    exact ⟨files, hfiles⟩
  have hdef : filesForWindow pairs tier start stop today = (pairs.mapM (pairFiles tier start stop today)).bind
      (fun files => some (files.flatten.mergeSort sortsBefore)) := if_pos hwindow
  rw [hdef, hall, Option.bind_some, List.flatMap_def]

/-- The files of all pairs cover a day of the window once for each instrument asked for. -/
theorem countP_pairFiles {pairs : List (String × String)} (hpairs : (pairs.map Prod.fst).Nodup)
    (hstop : stop.year < maxYear ∨ stop.month < 12) (p : String × String) (day : Date) :
    (pairs.flatMap (fun pair => (pairFiles tier start stop today pair).getD [])).countP
      (fun f => decide (f.Covers p day)) = if p ∈ pairs ∧ start ≤ day ∧ day ≤ stop then 1 else 0 := by
  have heach : ∀ pair ∈ pairs, ((pairFiles tier start stop today pair).getD []).countP
      (fun f => decide (f.Covers p day)) =
        if decide (pair = p ∧ start ≤ day ∧ day ≤ stop) = true then 1 else 0 := by
    intro pair _
    obtain ⟨files, hfiles, hcount, -⟩ := pairFiles_covers tier start today hstop pair
    rw [hfiles, Option.getD_some, hcount]
    exact if_congr decide_eq_true_iff.symm rfl rfl
  rw [countP_flatMap_eq heach]
  by_cases hin : start ≤ day ∧ day ≤ stop
  · have hsame : pairs.countP (fun pair => decide (pair = p ∧ start ≤ day ∧ day ≤ stop)) = pairs.count p := by
      refine List.countP_congr (fun pair _ => ?_)
      rw [decide_eq_true_eq, beq_iff_eq]
      exact and_iff_left hin
    rw [hsame, (List.Nodup.of_map Prod.fst hpairs).count]
    exact if_congr (and_iff_left hin).symm rfl rfl
  · rw [if_neg (fun h => hin h.2), List.countP_eq_zero]
    exact fun pair _ h => hin (of_decide_eq_true h).2

end Plan

theorem sortsBefore_trans (f g h : ArchiveFile) (hfg : sortsBefore f g = true) (hgh : sortsBefore g h = true) :
    sortsBefore f h = true := by
  have hfg := of_decide_eq_true hfg
  have hgh := of_decide_eq_true hgh
  refine decide_eq_true ?_
  rcases hfg with hfg | ⟨hfg, hfg'⟩
  · rcases hgh with hgh | ⟨hgh, -⟩
    · exact Or.inl (lt_trans hfg hgh)
    · exact Or.inl (hgh ▸ hfg)
  · rcases hgh with hgh | ⟨hgh, hgh'⟩
    · exact Or.inl (hfg ▸ hgh)
    · refine Or.inr ⟨hfg.trans hgh, ?_⟩
      rcases hfg' with hlt | ⟨heq, hle⟩
      · rcases hgh' with hlt' | ⟨heq', -⟩ <;> exact Or.inl (by omega)
      · rcases hgh' with hlt' | ⟨heq', hle'⟩
        · exact Or.inl (by omega)
        · exact Or.inr ⟨heq.trans heq', le_trans hle hle'⟩

theorem sortsBefore_total (f g : ArchiveFile) : (sortsBefore f g || sortsBefore g f) = true := by
  rw [Bool.or_eq_true]
  rcases lt_trichotomy f.instrumentId g.instrumentId with hlt | heq | hlt
  · exact Or.inl (decide_eq_true (Or.inl hlt))
  · rcases Int.lt_trichotomy f.dt g.dt with hday | hday | hday
    · exact Or.inl (decide_eq_true (Or.inr ⟨heq, Or.inl hday⟩))
    · rcases le_total f.granularity.text g.granularity.text with hle | hle
      · exact Or.inl (decide_eq_true (Or.inr ⟨heq, Or.inr ⟨hday, hle⟩⟩))
      · exact Or.inr (decide_eq_true (Or.inr ⟨heq.symm, Or.inr ⟨hday.symm, hle⟩⟩))
    · exact Or.inr (decide_eq_true (Or.inr ⟨heq.symm, Or.inl hday⟩))
  · exact Or.inr (decide_eq_true (Or.inl hlt))

/-- **A plan covers its window once**: every day of it by one file of each pair, and no other day; it is ordered by
instrument and first day, and empty exactly when there is nothing to cover. -/
theorem filesForWindow_covers (pairs : List (String × String)) (hpairs : (pairs.map Prod.fst).Nodup) (tier : Tier)
    (start stop today : Date) (hstop : stop.year < maxYear ∨ stop.month < 12) :
    ∃ files, filesForWindow pairs tier start stop today = some files ∧
      (∀ pair day, files.countP (fun f => decide (f.Covers pair day)) =
        if pair ∈ pairs ∧ start ≤ day ∧ day ≤ stop then 1 else 0) ∧
      (∀ f ∈ files, ∃ pair ∈ pairs, ∃ day, f = fileOf tier pair .daily day.dayText day ∨
        f = fileOf tier pair .monthly day.monthText day.firstOfMonth) ∧
      files.Pairwise (fun f g => f.instrumentId < g.instrumentId ∨ f.instrumentId = g.instrumentId ∧ f.dt ≤ g.dt) ∧
      (files = [] ↔ ¬ start ≤ stop ∨ pairs = []) := by
  by_cases hwindow : start ≤ stop
  · have hplan := filesForWindow_eq tier start today pairs hstop hwindow
    have hcount := countP_pairFiles tier start today hpairs hstop
    have hperm := List.mergeSort_perm (pairs.flatMap (fun pair => (pairFiles tier start stop today pair).getD []))
      sortsBefore
    refine ⟨_, hplan, fun pair day => ?_, fun f hf => ?_, ?_, ?_⟩
    · rw [hperm.countP_eq, hcount]
    · obtain ⟨pair, hmem, hf⟩ := List.mem_flatMap.1 (hperm.mem_iff.1 hf)
      obtain ⟨files, hfiles, -, hform⟩ := pairFiles_covers tier start today hstop pair
      rw [hfiles, Option.getD_some] at hf
      exact ⟨pair, hmem, hform f hf⟩
    · refine (List.pairwise_mergeSort sortsBefore_trans sortsBefore_total _).imp (fun {f g} hsorted => ?_)
      rcases of_decide_eq_true hsorted with hlt | ⟨heq, hlt | ⟨hday, -⟩⟩
      · exact Or.inl hlt
      · exact Or.inr ⟨heq, Int.le_of_lt hlt⟩
      · exact Or.inr ⟨heq, Int.le_of_eq hday⟩
    · constructor
      · intro hnil
        rw [hnil] at hperm
        refine Or.inr (List.eq_nil_iff_forall_not_mem.2 (fun pair hmem => ?_))
        have hone := hcount pair start
        rw [if_pos ⟨hmem, le_iff_toOrdinal_le.2 (Nat.le_refl _), hwindow⟩, hperm.symm.eq_nil] at hone
        cases hone
      · rintro (hnot | rfl)
        · exact absurd hwindow hnot
        · exact List.mergeSort_nil
  · refine ⟨[], if_neg hwindow, fun pair day => ?_, (fun f hf => by cases hf), List.Pairwise.nil,
      iff_of_true rfl (Or.inl hwindow)⟩
    rw [if_neg, List.countP_nil]
    rintro ⟨-, hge, hle⟩
    rw [le_iff_toOrdinal_le] at hge hle hwindow
    omega

/-- From the middle of January 2024 to the tenth of March, of two instruments: the leap day is covered once. -/
theorem filesForWindow_covers_leapDay : ∃ start stop today leapDay, Date.ofParts 2024 1 15 = some start ∧
    Date.ofParts 2024 3 10 = some stop ∧ Date.ofParts 2024 3 20 = some today ∧ Date.ofParts 2024 2 29 = some leapDay ∧
    ∃ files, filesForWindow [("BTC-USD", "BTCUSDT"), ("ETH-USD", "ETHUSDT")] .deep start stop today = some files ∧
      files.countP (fun f => decide (f.Covers ("ETH-USD", "ETHUSDT") leapDay)) = 1 := by
  refine ⟨_, _, _, _, rfl, rfl, rfl, rfl, ?_⟩
  refine (filesForWindow_covers _ ?_ _ _ _ _ ?_).imp (fun files h => ⟨h.1, ?_⟩)
  · decide
  · decide
  · rw [h.2.1, if_pos]
    decide

end Backfill
