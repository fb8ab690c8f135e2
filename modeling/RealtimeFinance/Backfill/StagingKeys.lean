import Mathlib.Data.List.Nodup
import RealtimeFinance.Backfill.Seed
import RealtimeFinance.Backfill.WindowCover
import RealtimeFinance.Python.DateText
/-!
# StagingKeys — the staging objects of a plan

A staging object is named by an instrument id and a period, an archive file by its venue symbol too.  The files of one
symbol have periods of their own, and a window gives every symbol the same periods.  So the staging keys of a plan are
distinct exactly when, of two symbols with one id, every day is done for the one or for the other
(`stagingKeys_distinct_iff`).
-/
namespace Backfill

open Python Python.Date

section Files

variable (tier : Tier) (start stop today : Date)

/-- The file that holds a day of the window for a pair. -/
def fileOn (pair : String × String) (day : Date) : ArchiveFile :=
  if TakenWhole start stop today (day.firstOfMonth, day.lastOfMonth) then
    fileOf tier pair .monthly day.monthText day.firstOfMonth
  else fileOf tier pair .daily day.dayText day

theorem fileOn_covers (pair : String × String) (day : Date) : (fileOn tier start stop today pair day).Covers pair day := by
  unfold fileOn
  split
  · exact fileOf_monthly_covers.2 ⟨rfl, rfl⟩
  · exact fileOf_daily_covers.2 ⟨rfl, rfl⟩

/-- A month's days have one file where it is taken whole. -/
theorem fileOn_month {day : Date} {month : Date × Date} (hfirst : month.1.firstOfMonth = month.1)
    (hlast : month.2 = month.1.lastOfMonth) (h : day.monthIndex = month.1.monthIndex) (pair : String × String) :
    fileOn tier start stop today pair day =
      if TakenWhole start stop today month then fileOf tier pair .monthly month.1.monthText month.1
      else fileOf tier pair .daily day.dayText day := by
  have hday : day.firstOfMonth = month.1 := (firstOfMonth_eq_iff.2 h).trans hfirst
  have hmonth : (day.firstOfMonth, day.lastOfMonth) = month := by
    have hend : day.lastOfMonth = day.firstOfMonth.lastOfMonth := rfl
    rw [hend, hday, ← hlast]
  have htext : day.monthText = month.1.monthText := by
    rw [← String.toList_inj, monthText_eq_iff, hday, hfirst]
  unfold fileOn
  rw [hmonth, htext, hday]

theorem mem_filesForMonth (pair : String × String) {month : Date × Date} (hfirst : month.1.firstOfMonth = month.1)
    (hlast : month.2 = month.1.lastOfMonth) (hbefore : month.1.year < maxYear ∨ month.1.month < 12) (f : ArchiveFile) :
    f ∈ (filesForMonth tier start stop today pair month).getD [] ↔
      ∃ day : Date, day.monthIndex = month.1.monthIndex ∧ start ≤ day ∧ day ≤ stop ∧
        f = fileOn tier start stop today pair day := by
  have hmonth := mem_month hfirst hlast
  have hfile := fun (day : Date) (h : day.monthIndex = month.1.monthIndex) => fileOn_month tier start stop today hfirst hlast h pair
  rcases filesForMonth_eq tier start stop today pair hlast hbefore with ⟨hwhole, hfiles⟩ | ⟨hwhole, days, hfiles, hmap⟩
  · rw [hfiles, Option.getD_some, List.mem_singleton]
    constructor
    · rintro rfl
      have hle : month.1 ≤ month.2 := ((hmonth month.1).1 rfl).2
      refine ⟨month.1, rfl, hwhole.1, ?_, by rw [hfile _ rfl, if_pos hwhole]⟩
      have hstop := hwhole.2.1
      rw [le_iff_toOrdinal_le] at *
      omega
    · rintro ⟨day, hindex, -, -, rfl⟩
      rw [hfile day hindex, if_pos hwhole]
  · have hdays : ∀ day, day ∈ days ↔ day.monthIndex = month.1.monthIndex ∧ start ≤ day ∧ day ≤ stop := by
      intro day
      have hmem : day ∈ days ↔ day.toOrdinal ∈ days.map Date.toOrdinal :=
        ⟨List.mem_map_of_mem, fun h => by
          obtain ⟨day', hday', heq⟩ := List.mem_map.1 h
          exact toOrdinal_injective heq ▸ hday'⟩
      have hrange : day.toOrdinal ∈ days.map Date.toOrdinal ↔
          month.1.latest start ≤ day ∧ day ≤ month.2.earliest stop := by
        rw [hmap, List.mem_range'_1, le_iff_toOrdinal_le, le_iff_toOrdinal_le]
        omega
      rw [hmem, hrange, latest_le_iff, le_earliest_iff, hmonth]
      exact ⟨fun ⟨⟨h1, h2⟩, h3, h4⟩ => ⟨⟨h1, h3⟩, h2, h4⟩, fun ⟨⟨h1, h3⟩, h2, h4⟩ => ⟨⟨h1, h2⟩, h3, h4⟩⟩
    rw [hfiles, Option.getD_some, List.mem_map]
    constructor
    · rintro ⟨day, hday, rfl⟩
      obtain ⟨hindex, hwindow⟩ := (hdays day).1 hday
      exact ⟨day, hindex, hwindow.1, hwindow.2, by rw [hfile day hindex, if_neg hwhole]⟩
    · rintro ⟨day, hindex, hstart, hstop, rfl⟩
      exact ⟨day, (hdays day).2 ⟨hindex, hstart, hstop⟩, by rw [hfile day hindex, if_neg hwhole]⟩

variable {stop}

/-- **The files of a pair** are those of the days of the window. -/
theorem mem_pairFiles (hstop : stop.year < maxYear ∨ stop.month < 12) (pair : String × String) (f : ArchiveFile) :
    f ∈ (pairFiles tier start stop today pair).getD [] ↔
      ∃ day : Date, start ≤ day ∧ day ≤ stop ∧ f = fileOn tier start stop today pair day := by
  obtain ⟨months, hfiles, hshape, hmap⟩ := pairFiles_eq tier start today hstop pair
  have hmonth := fun month (h : month ∈ months) =>
    mem_filesForMonth tier start stop today pair (hshape month h).1 (hshape month h).2.1 (hshape month h).2.2 f
  rw [hfiles, Option.getD_some, List.mem_flatMap]
  constructor
  · rintro ⟨month, hmem, hf⟩
    obtain ⟨day, -, h⟩ := (hmonth month hmem).1 hf
    exact ⟨day, h⟩
  · rintro ⟨day, hstart, hle, hf⟩
    have hindex : day.monthIndex ∈ months.map (fun month => month.1.monthIndex) := by
      have hge := monthIndex_mono hstart
      have hle := monthIndex_mono hle
      rw [hmap, List.mem_range'_1]
      omega
    obtain ⟨month, hmem, heq⟩ := List.mem_map.1 hindex
    exact ⟨month, hmem, (hmonth month hmem).2 ⟨day, heq.symm, hstart, hle, hf⟩⟩

theorem nodup_pairFiles (hstop : stop.year < maxYear ∨ stop.month < 12) (pair : String × String) :
    ((pairFiles tier start stop today pair).getD []).Nodup := by
  obtain ⟨files, hfiles, hcount, -⟩ := pairFiles_covers tier start today hstop pair
  have hmem := mem_pairFiles tier start today hstop pair
  rw [hfiles, Option.getD_some] at *
  refine List.nodup_iff_count_le_one.2 (fun f => ?_)
  by_cases hf : f ∈ files
  · obtain ⟨day, hstart, hle, rfl⟩ := (hmem f).1 hf
    have hone := hcount pair day
    rw [if_pos ⟨rfl, hstart, hle⟩] at hone
    rw [← hone]
    refine List.countP_mono_left (fun g _ hg => decide_eq_true ?_)
    rw [eq_of_beq hg]
    exact fileOn_covers tier start stop today pair day
  · rw [List.count_eq_zero_of_not_mem hf]
    exact Nat.zero_le 1

end Files

/-! ## Staging keys -/

/-- **A staging key has one id and one period.** -/
theorem fileOn_of_stagingKey {tier : Tier} {start stop today : Date} {p q : String × String} {day day' : Date}
    (h : stagingKeyFor (fileOn tier start stop today p day) = stagingKeyFor (fileOn tier start stop today q day')) :
    p.1 = q.1 ∧ ∀ pair, fileOn tier start stop today pair day = fileOn tier start stop today pair day' := by
  have hfile : ∀ pair day, fileOn tier start stop today pair day =
      if TakenWhole start stop today (day.firstOfMonth, day.lastOfMonth) then
        fileOf tier pair .monthly day.monthText day.firstOfMonth
      else fileOf tier pair .daily day.dayText day := fun _ _ => rfl
  have hkey : ∀ (pair : String × String) (granularity : Granularity) (period : String) (dt : Date),
      (stagingKeyFor (fileOf tier pair granularity period dt)).toList = (stagingPrefixes tier ++ "/").toList ++
        (pair.1.toList ++ "-".toList ++ period.toList ++ ".csv.gz".toList) := by
    intro pair granularity period dt
    simp only [stagingKeyFor, fileOf, String.toList_append, List.append_assoc]
  have h := congrArg String.toList h
  rw [hfile p day, hfile q day'] at h
  by_cases hday : TakenWhole start stop today (day.firstOfMonth, day.lastOfMonth)
  · by_cases hday' : TakenWhole start stop today (day'.firstOfMonth, day'.lastOfMonth)
    · rw [if_pos hday, if_pos hday', hkey, hkey] at h
      have hname := List.append_cancel_right (List.append_cancel_left h)
      obtain ⟨hid, htext⟩ := List.append_inj' hname (by rw [length_monthText, length_monthText])
      refine ⟨String.toList_inj.1 (List.append_cancel_right hid), fun pair => ?_⟩
      rw [hfile pair day, hfile pair day', if_pos hday, if_pos hday', String.toList_inj.1 htext, monthText_eq_iff.1 htext]
    · rw [if_pos hday, if_neg hday', hkey, hkey] at h
      exact absurd (List.append_cancel_right (List.append_cancel_left h)) (monthText_ne_dayText _ _)
  · by_cases hday' : TakenWhole start stop today (day'.firstOfMonth, day'.lastOfMonth)
    · rw [if_neg hday, if_pos hday', hkey, hkey] at h
      exact absurd (List.append_cancel_right (List.append_cancel_left h)).symm (monthText_ne_dayText _ _)
    · rw [if_neg hday, if_neg hday', hkey, hkey] at h
      have hname := List.append_cancel_right (List.append_cancel_left h)
      obtain ⟨hid, htext⟩ := List.append_inj' hname (by rw [length_dayText, length_dayText])
      have hsame : day = day' := dayText_injective htext
      exact ⟨String.toList_inj.1 (List.append_cancel_right hid), fun pair => by rw [hsame]⟩

/-- What is left to do of two pairs is apart: of the files they need for a day, if they have one id, one is done. -/
def Apart (tier : Tier) (start stop today : Date) (already : List String) (p q : String × String) : Prop :=
  p.1 = q.1 → ∀ day : Date, start ≤ day → day ≤ stop →
    (fileOn tier start stop today p day).key ∈ already ∨ (fileOn tier start stop today q day).key ∈ already

section Plan

variable (tier : Tier) (start : Date) {stop : Date} (today : Date) (already : List String)

theorem mem_pairKeys (hstop : stop.year < maxYear ∨ stop.month < 12) (pair : String × String) (key : String) :
    key ∈ (plan ((pairFiles tier start stop today pair).getD []) already).map WorkItem.stagingKey ↔
      ∃ day : Date, start ≤ day ∧ day ≤ stop ∧ (fileOn tier start stop today pair day).key ∉ already ∧
        stagingKeyFor (fileOn tier start stop today pair day) = key := by
  simp only [plan, List.map_map, List.mem_map, List.mem_filter, mem_pairFiles tier start today hstop, Function.comp_apply,
    Bool.not_eq_true', List.contains_eq_mem, decide_eq_false_iff_not]
  constructor
  · rintro ⟨f, ⟨⟨day, hstart, hle, rfl⟩, hleft⟩, rfl⟩
    exact ⟨day, hstart, hle, hleft, rfl⟩
  · rintro ⟨day, hstart, hle, hleft, rfl⟩
    exact ⟨_, ⟨⟨day, hstart, hle, rfl⟩, hleft⟩, rfl⟩

/-- **The files of one pair have staging keys of their own.** -/
theorem nodup_pairKeys (hstop : stop.year < maxYear ∨ stop.month < 12) (pair : String × String) :
    ((plan ((pairFiles tier start stop today pair).getD []) already).map WorkItem.stagingKey).Nodup := by
  unfold plan
  rw [List.map_map]
  refine ((nodup_pairFiles tier start today hstop pair).filter _).map_on (fun f hf g hg h => ?_)
  obtain ⟨day, -, -, rfl⟩ := (mem_pairFiles tier start today hstop pair f).1 (List.mem_of_mem_filter hf)
  obtain ⟨day', -, -, rfl⟩ := (mem_pairFiles tier start today hstop pair g).1 (List.mem_of_mem_filter hg)
  exact (fileOn_of_stagingKey h).2 pair

theorem disjoint_pairKeys_iff (hstop : stop.year < maxYear ∨ stop.month < 12) (p q : String × String) :
    List.Disjoint ((plan ((pairFiles tier start stop today p).getD []) already).map WorkItem.stagingKey)
        ((plan ((pairFiles tier start stop today q).getD []) already).map WorkItem.stagingKey) ↔
      Apart tier start stop today already p q := by
  constructor
  · intro h hid day hstart hle
    apply Decidable.byContradiction
    intro hleft
    obtain ⟨hleftP, hleftQ⟩ := not_or.1 hleft
    have hsame : stagingKeyFor (fileOn tier start stop today q day) = stagingKeyFor (fileOn tier start stop today p day) := by
      unfold fileOn stagingKeyFor
      split <;> simp only [fileOf, hid]
    exact h ((mem_pairKeys tier start today already hstop p _).2 ⟨day, hstart, hle, hleftP, rfl⟩)
      ((mem_pairKeys tier start today already hstop q _).2 ⟨day, hstart, hle, hleftQ, hsame⟩)
  · intro h key hp hq
    obtain ⟨day, hstart, hle, hleftP, rfl⟩ := (mem_pairKeys tier start today already hstop p key).1 hp
    obtain ⟨day', -, -, hleftQ, hkey⟩ := (mem_pairKeys tier start today already hstop q _).1 hq
    obtain ⟨hid, hfile⟩ := fileOn_of_stagingKey hkey.symm
    rcases h hid day hstart hle with hdone | hdone
    · exact hleftP hdone
    · rw [hfile q] at hdone
      exact hleftQ hdone

/-- **A plan's staging keys are distinct exactly when** its pairs are apart. -/
theorem plan_nodup_iff (hstop : stop.year < maxYear ∨ stop.month < 12) (pairs : List (String × String)) :
    ((plan (pairs.flatMap (fun pair => (pairFiles tier start stop today pair).getD [])) already).map
      WorkItem.stagingKey).Nodup ↔ pairs.Pairwise (Apart tier start stop today already) := by
  have hparts : (plan (pairs.flatMap (fun pair => (pairFiles tier start stop today pair).getD [])) already).map
      WorkItem.stagingKey = pairs.flatMap (fun pair =>
        (plan ((pairFiles tier start stop today pair).getD []) already).map WorkItem.stagingKey) := by
    unfold plan
    rw [List.filter_flatMap, List.map_flatMap, List.map_flatMap]
  rw [hparts, List.nodup_flatMap]
  constructor
  · rintro ⟨-, h⟩
    exact h.imp (fun {p q} hdisjoint => (disjoint_pairKeys_iff tier start today already hstop p q).1 hdisjoint)
  · intro h
    exact ⟨fun pair _ => nodup_pairKeys tier start today already hstop pair,
      h.imp (fun {p q} hapart => (disjoint_pairKeys_iff tier start today already hstop p q).2 hapart)⟩

end Plan

/-! ## What `main` plans -/

/-- The items of a plan, also of one that is only printed. -/
def SeedOutput.work : SeedOutput → List WorkItem
  | .startAfterEnd => []
  | .dryRun items  => items
  | .planned items => items

/-- `already`. -/
def alreadyDone (athena : QueryResults) (args : SeedArgs) (manifest : List ManifestRow) : List String :=
  if args.dryRun = true ∨ args.fresh = true then []
  else doneKeysOf (fetchRows athena (doneResult athena args.tier manifest) 1000)

/-- The months of a window that ends in the last month there is are too many. -/
theorem monthsFrom_eq_none {stop : Date} (hstop : ¬ (stop.year < maxYear ∨ stop.month < 12)) (n : Nat) : ∀ cursor : Date,
    cursor.firstOfMonth = cursor → cursor ≤ stop → stop.monthIndex < n + cursor.monthIndex →
      monthsFrom stop n cursor = none := by
  induction n with
  | zero =>
    intro cursor _ hle h
    have := monthIndex_mono hle
    omega
  | succ n ih =>
    intro cursor hfirst hle h
    have hdef : monthsFrom stop (n + 1) cursor = cursor.lastOfMonth.tomorrow.bind (fun next =>
        (monthsFrom stop n next).bind (fun months => some ((cursor, cursor.lastOfMonth) :: months))) := if_pos hle
    rw [hdef]
    cases hnext : cursor.lastOfMonth.tomorrow with
    | none => rfl
    | some next =>
      obtain ⟨hindex, hnextFirst⟩ := tomorrow_lastOfMonth hnext
      have hlast : next.monthIndex ≤ stop.monthIndex := by
        have := next.year_le
        have := next.month_le
        unfold monthIndex
        omega
      rw [Option.bind_some, ih next hnextFirst ((first_le_iff hnextFirst).2 hlast) (by omega)]
      rfl

theorem pairFiles_eq_none (tier : Tier) {start stop : Date} (today : Date)
    (hstop : ¬ (stop.year < maxYear ∨ stop.month < 12)) (hwindow : start ≤ stop) (pair : String × String) :
    pairFiles tier start stop today pair = none := by
  have hindex := monthIndex_mono hwindow
  have hfirst : start.firstOfMonth ≤ stop := (first_le_iff rfl).2 hindex
  have hturns : stop.monthIndex < 12 * (stop.year + 1 - start.year) + start.firstOfMonth.monthIndex := by
    have := stop.month_le
    have := start.month_pos
    show stop.monthIndex < 12 * (stop.year + 1 - start.year) + start.monthIndex
    unfold monthIndex at *
    omega
  have hmonths : monthsBetween start stop = none := monthsFrom_eq_none hstop _ start.firstOfMonth rfl hfirst hturns
  unfold pairFiles
  rw [hmonths]
  rfl

/-- The files of a window are those of its pairs, if it has a pair. -/
theorem filesForWindow_perm {pairs : List (String × String)} {tier : Tier} {start stop today : Date}
    (hwindow : start ≤ stop) {files : List ArchiveFile} (h : filesForWindow pairs tier start stop today = some files) :
    (pairs = [] ∨ stop.year < maxYear ∨ stop.month < 12) ∧
      files.Perm (pairs.flatMap (fun pair => (pairFiles tier start stop today pair).getD [])) := by
  by_cases hstop : stop.year < maxYear ∨ stop.month < 12
  · rw [filesForWindow_eq tier start today pairs hstop hwindow] at h
    cases h
    exact ⟨Or.inr hstop, List.mergeSort_perm _ _⟩
  · have hdef : filesForWindow pairs tier start stop today = (pairs.mapM (pairFiles tier start stop today)).bind
        (fun files => some (files.flatten.mergeSort sortsBefore)) := if_pos hwindow
    cases pairs with
    | nil =>
      rw [hdef] at h
      cases h
      exact ⟨Or.inl rfl, List.mergeSort_perm _ _⟩
    | cons pair pairs =>
      rw [hdef, List.mapM_cons, pairFiles_eq_none tier today hstop hwindow] at h
      cases h

theorem seedMain_work {athena : QueryResults} {args : SeedArgs} {today : Date} {manifest : List ManifestRow}
    {output : SeedOutput} (h : seedMain athena args today manifest = some output) :
    (¬ args.start ≤ args.stop ∧ output.work = []) ∨
      args.start ≤ args.stop ∧ ∃ pairs files, instrumentPairs args.entries = some pairs ∧
        filesForWindow pairs args.tier args.start args.stop today = some files ∧
        output.work = plan files (alreadyDone athena args manifest) := by
  unfold seedMain at h
  split at h
  · rename_i hwindow
    cases h
    exact Or.inl ⟨hwindow, rfl⟩
  · rename_i hwindow
    obtain ⟨pairs, hpairs, h⟩ := Option.bind_eq_some_iff.1 h
    obtain ⟨files, hfiles, h⟩ := Option.bind_eq_some_iff.1 h
    refine Or.inr ⟨Decidable.not_not.1 hwindow, pairs, files, hpairs, hfiles, ?_⟩
    unfold alreadyDone
    by_cases hdryRun : args.dryRun = true
    · rw [if_pos hdryRun] at h
      cases h
      rw [if_pos (Or.inl hdryRun)]
      rfl
    · rw [if_neg hdryRun] at h
      cases h
      have hor : (args.dryRun = true ∨ args.fresh = true) = (args.fresh = true) := by simp [hdryRun]
      simp only [hor]
      rfl

theorem work_nodup_iff {athena : QueryResults} {args : SeedArgs} {today : Date} {manifest : List ManifestRow}
    {output : SeedOutput} (h : seedMain athena args today manifest = some output) (hwindow : args.start ≤ args.stop)
    {pairs : List (String × String)} (hpairs : instrumentPairs args.entries = some pairs) :
    (output.work.map WorkItem.stagingKey).Nodup ↔
      pairs.Pairwise (Apart args.tier args.start args.stop today (alreadyDone athena args manifest)) := by
  rcases seedMain_work h with ⟨hnot, -⟩ | ⟨-, pairs', files, hpairs', hfiles, hwork⟩
  · exact absurd hwindow hnot
  · rw [hpairs] at hpairs'
    cases hpairs'
    obtain ⟨hstop, hperm⟩ := filesForWindow_perm hwindow hfiles
    have hplan : (plan files (alreadyDone athena args manifest)).Perm
        (plan (pairs.flatMap (fun pair => (pairFiles args.tier args.start args.stop today pair).getD []))
          (alreadyDone athena args manifest)) := (hperm.filter _).map workItem
    rw [hwork, (hplan.map WorkItem.stagingKey).nodup_iff]
    rcases hstop with rfl | hstop
    · exact iff_of_true List.nodup_nil List.Pairwise.nil
    · exact plan_nodup_iff args.tier args.start today _ hstop pairs

/-- **The staging keys of a plan are distinct exactly when** no two symbols of one id both have a day left to do. -/
theorem stagingKeys_distinct_iff (athena : QueryResults) (args : SeedArgs) (today : Date) (manifest : List ManifestRow)
    {output : SeedOutput} (h : seedMain athena args today manifest = some output) :
    (output.work.map WorkItem.stagingKey).Nodup ↔ ∀ pairs, instrumentPairs args.entries = some pairs →
      pairs.Pairwise (fun p q => p.1 = q.1 → ∀ day : Date, args.start ≤ day → day ≤ args.stop →
        (fileOn args.tier args.start args.stop today p day).key ∈ alreadyDone athena args manifest ∨
        (fileOn args.tier args.start args.stop today q day).key ∈ alreadyDone athena args manifest) := by
  rcases seedMain_work h with ⟨hwindow, hwork⟩ | ⟨hwindow, pairs, -, hpairs, -⟩
  · rw [hwork]
    refine iff_of_true List.nodup_nil (fun pairs _ => List.pairwise_of_forall (fun p q _ day hstart hle => ?_))
    rw [le_iff_toOrdinal_le] at hwindow hstart hle
    omega
  · refine (work_nodup_iff h hwindow hpairs).trans ⟨fun hapart pairs' hpairs' => ?_, fun hall => hall pairs hpairs⟩
    rw [hpairs] at hpairs'
    cases hpairs'
    exact hapart

/-! ## Two symbols of one id -/

/-- Bitcoin in two quote currencies, on one day. -/
def twoSymbolArgs : SeedArgs :=
  { entries := [⟨"BTC-USD", [("binance", "BTCUSDT")]⟩, ⟨"BTC-USD", [("binance", "BTCUSDC")]⟩], tier := .hot
    start := octoberDay, stop := octoberDay, fresh := true, dryRun := false }

/-- Two symbols of one id, of which one is done, and another instrument. -/
def threeSymbolArgs : SeedArgs :=
  { entries := [⟨"BTC-USD", [("binance", "BTCUSDT")]⟩, ⟨"BTC-USD", [("binance", "BTCUSDC")]⟩,
      ⟨"ETH-USD", [("binance", "ETHUSDT")]⟩]
    tier := .hot, start := octoberDay, stop := octoberDay, fresh := false, dryRun := false }

theorem stagingKeys_distinct_iff_threeSymbols : ∃ output,
    seedMain fullPages threeSymbolArgs octoberDay [doneRow bitcoinFile] = some output ∧
      (output.work.map WorkItem.stagingKey).Nodup := by
  have hsome : (seedMain fullPages threeSymbolArgs octoberDay [doneRow bitcoinFile]).isSome = true := by decide +kernel
  have hpairs : instrumentPairs threeSymbolArgs.entries =
      some [("BTC-USD", "BTCUSDT"), ("BTC-USD", "BTCUSDC"), ("ETH-USD", "ETHUSDT")] := by decide +kernel
  have hdone : (fileOn .hot octoberDay octoberDay octoberDay ("BTC-USD", "BTCUSDT") octoberDay).key ∈
      alreadyDone fullPages threeSymbolArgs [doneRow bitcoinFile] := by decide +kernel
  obtain ⟨output, h⟩ := Option.isSome_iff_exists.1 hsome
  refine ⟨output, h, (stagingKeys_distinct_iff fullPages threeSymbolArgs octoberDay _ h).2 (fun pairs hpairs' => ?_)⟩
  cases hpairs.symm.trans hpairs'
  refine .cons (fun q _ hid day hstart hstop => ?_) (.cons (fun q hq hid => ?_) (List.pairwise_singleton _ _))
  · obtain rfl : day = octoberDay := toOrdinal_injective
      (Nat.le_antisymm (le_iff_toOrdinal_le.1 hstop) (le_iff_toOrdinal_le.1 hstart))
    exact Or.inl hdone
  · cases List.mem_singleton.1 hq
    exact absurd hid (by decide)

/-- The two files are planned with one staging key. -/
theorem two_symbols_share_staging : ∃ output, seedMain fullPages twoSymbolArgs octoberDay [] = some output ∧
    ¬ (output.work.map WorkItem.stagingKey).Nodup := by
  have hsome : (seedMain fullPages twoSymbolArgs octoberDay []).isSome = true := by decide +kernel
  have hpairs : instrumentPairs twoSymbolArgs.entries = some [("BTC-USD", "BTCUSDT"), ("BTC-USD", "BTCUSDC")] := by
    decide +kernel
  obtain ⟨output, h⟩ := Option.isSome_iff_exists.1 hsome
  refine ⟨output, h, fun hnodup => ?_⟩
  have hday : octoberDay ≤ octoberDay := by decide
  have hapart := (List.pairwise_cons.1 ((work_nodup_iff h hday hpairs).1 hnodup)).1 _ List.mem_cons_self
  rcases hapart rfl octoberDay hday hday with hdone | hdone <;> cases hdone

end Backfill
