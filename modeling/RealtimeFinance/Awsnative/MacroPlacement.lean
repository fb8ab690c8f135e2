import RealtimeFinance.Awsnative.SilverMacro
/-!
# MacroPlacement — when `merge_silver_macro.sql` runs

The pull and the merge are on one daily schedule of their own each, so a merge stands anywhere between the pulls.  Silver
is then the first sightings of the pulls up to the last merge (`Trails`), and of all of them after the next: what one
merge over the whole of Bronze makes of an empty table (`macroPlacement`).
-/
namespace Awsnative

open Sql Vintages

/-- What runs on the schedule. -/
inductive MacroCall
  | collect (p : MacroPull)
  | merge

def MacroLake.exec (lake : MacroLake) : MacroCall → MacroLake
  | .collect p => { lake with objects := lake.objects.put p.vintageDate p.rows }
  | .merge     =>
    match mergeSilverMacro lake.objects.rows lake.silver with
    | .ok silver => { lake with silver }
    | .error _   => lake

/-- A merge right after every pull is one placement. -/
theorem MacroLake.step_eq (lake : MacroLake) (p : MacroPull) :
    lake.step p = (lake.exec (.collect p)).exec .merge := by
  cases h : mergeSilverMacro (lake.objects.put p.vintageDate p.rows).rows lake.silver with
  | ok silver => simp only [MacroLake.step, MacroLake.exec, h]
  | error e   => simp only [MacroLake.step, MacroLake.exec, h]

def MacroCall.pull? : MacroCall → Option MacroPull
  | .collect p => some p
  | .merge     => none

def pullsOf (calls : List MacroCall) : List MacroPull := calls.filterMap MacroCall.pull?

/-- Merges anywhere between pulls in the order of their vintages. -/
structure MacroSchedule where
  calls : List MacroCall
  increasing : (pullsOf calls).Pairwise (fun p q => p.vintageDate < q.vintageDate)

def MacroSchedule.pulls (schedule : MacroSchedule) : List MacroPull := pullsOf schedule.calls

def MacroSchedule.lake (schedule : MacroSchedule) : MacroLake := schedule.calls.foldl MacroLake.exec MacroLake.empty

/-- Silver's rows, without the columns that are computed from the others. -/
def SilverMacroRow.stamp (m : SilverMacroRow) : Option String × Option Int × Option Int :=
  (m.seriesId, m.observationDate, m.vintageDate)

def SilverMacroRow.reading (m : SilverMacroRow) : MacroGroup := (m.seriesId, m.observationDate, m.value)

/-- **Where the merges stood does not show** after one more. -/
structure MacroLake.Placed (pulls : List MacroPull) (lake : MacroLake) : Prop where
  bronze : ∀ b, b ∈ lake.objects.rows ↔ ∃ p ∈ pulls, b ∈ p.rows
  goesThrough : (mergeSilverMacro lake.objects.rows lake.silver).isOk = true
  asOne : ∃ single, mergeSilverMacro lake.objects.rows [] = .ok single ∧ (lake.exec .merge).silver.Perm single
  onePerVintage : ((lake.exec .merge).silver.map SilverMacroRow.stamp).Nodup
  onePerValue : ((lake.exec .merge).silver.map SilverMacroRow.reading).Nodup
  earliest : ∀ m ∈ (lake.exec .merge).silver, ∃ k v d, FirstSeen (pulls.map MacroPull.pull) k v d ∧ m = sightingRow k v d
  keeps : lake.silver <+: (lake.exec .merge).silver
  again : (lake.exec .merge).exec .merge = lake.exec .merge

/-! ## Silver trails the pulls -/

/-- The lake after some pulls, the last merge before those of `post`. -/
structure Trails (pre post : List MacroPull) (lake : MacroLake) : Prop where
  vintages : ∀ o ∈ lake.objects, ∃ p ∈ pre ++ post, o.1 = p.vintageDate
  rows : ∀ b, b ∈ lake.objects.rows ↔ ∃ p ∈ pre ++ post, b ∈ p.rows
  silver : ∀ m, m ∈ lake.silver ↔ ∃ k v d, FirstSeen (pre.map MacroPull.pull) k v d ∧ m = sightingRow k v d
  nodup : lake.silver.Nodup

theorem Trails.empty : Trails [] [] MacroLake.empty where
  vintages o ho := by cases ho
  rows b := by simp [MacroLake.empty, MacroObjects.rows]
  silver m := by simp [MacroLake.empty, FirstSeen]
  nodup := List.nodup_nil

variable {pre post : List MacroPull} {lake : MacroLake}

theorem Trails.collect {p : MacroPull} (h : Trails pre post lake)
    (hinc : Increasing ((pre ++ (post ++ [p])).map MacroPull.pull)) :
    Trails pre (post ++ [p]) (lake.exec (.collect p)) := by
  rw [← List.append_assoc] at hinc
  obtain ⟨hvintages, hrows⟩ := objects_put hinc h.vintages h.rows
  rw [List.append_assoc] at hvintages hrows
  exact ⟨hvintages, hrows, h.silver, h.nodup⟩

/-- A group is read off its row. -/
theorem macroSource_nodup (bronze : List BronzeMacroRow) (silver : List SilverMacroRow) :
    (macroSource bronze silver).Nodup := by
  have hinjective : Function.Injective (macroRow bronze) := by
    intro g g' h
    have hreading := congrArg SilverMacroRow.reading h
    exact hreading
  exact ((List.nodup_dedup _).map hinjective).filter _

theorem Trails.exec_merge (h : Trails pre post lake) (hinc : Increasing ((pre ++ post).map MacroPull.pull)) :
    lake.exec .merge = { lake with silver := lake.silver ++ macroSource lake.objects.rows lake.silver } := by
  have hmerge := mergeSilverMacro_ok hinc h.rows h.silver
  unfold MacroLake.exec
  simp only [hmerge]

theorem Trails.merge (h : Trails pre post lake) (hinc : Increasing ((pre ++ post).map MacroPull.pull)) :
    Trails (pre ++ post) [] (lake.exec .merge) := by
  rw [h.exec_merge hinc]
  refine ⟨by rw [List.append_nil]; exact h.vintages, by rw [List.append_nil]; exact h.rows,
    fun m => mem_merged_sightings hinc h.rows h.silver, ?_⟩
  refine List.nodup_append.2 ⟨h.nodup, macroSource_nodup _ _, ?_⟩
  intro m hm s hs heq
  subst heq
  obtain ⟨k, v, d, -, hnew, rfl⟩ := (mem_macroSource_iff hinc h.rows h.silver).1 hs
  obtain ⟨k', v', d', hfirst, hsame⟩ := (h.silver _).1 hm
  have hreading : sighting k v = sighting k' v' := congrArg SilverMacroRow.reading hsame
  obtain ⟨rfl, rfl⟩ := sighting_inj hreading
  exact hnew hfirst.reported

/-- **Silver trails the pulls of every run.** -/
theorem trails_run (calls : List MacroCall) (hinc : Increasing ((pullsOf calls).map MacroPull.pull)) :
    ∃ pre post, pullsOf calls = pre ++ post ∧ Trails pre post (calls.foldl MacroLake.exec MacroLake.empty) := by
  induction calls using List.reverseRecOn with
  | nil => exact ⟨[], [], rfl, Trails.empty⟩
  | append_singleton calls call ih =>
    rw [List.foldl_append]
    cases call with
    | collect p =>
      have hpulls : pullsOf (calls ++ [.collect p]) = pullsOf calls ++ [p] := List.filterMap_append
      rw [hpulls] at hinc ⊢
      have hbefore : Increasing ((pullsOf calls).map MacroPull.pull) := by
        rw [List.map_append] at hinc
        exact hinc.of_append
      obtain ⟨pre, post, hsplit, h⟩ := ih hbefore
      rw [hsplit, List.append_assoc] at hinc
      exact ⟨pre, post ++ [p], by rw [hsplit, List.append_assoc], h.collect hinc⟩
    | merge =>
      have hpulls : pullsOf (calls ++ [.merge]) = pullsOf calls := by
        unfold pullsOf
        rw [List.filterMap_append]
        exact List.append_nil _
      rw [hpulls] at hinc ⊢
      obtain ⟨pre, post, hsplit, h⟩ := ih hinc
      rw [hsplit] at hinc ⊢
      exact ⟨pre ++ post, [], (List.append_nil _).symm, h.merge hinc⟩

/-! ## After one more merge -/

/-- Silver that is the first sightings of some pulls has one row of a vintage, and one of a value. -/
theorem sightings_nodup {pulls : List MacroPull} {silver : List SilverMacroRow}
    (hinc : Increasing (pulls.map MacroPull.pull)) (hnodup : silver.Nodup)
    (hsilver : ∀ m, m ∈ silver ↔ ∃ k v d, FirstSeen (pulls.map MacroPull.pull) k v d ∧ m = sightingRow k v d) :
    (silver.map SilverMacroRow.stamp).Nodup ∧ (silver.map SilverMacroRow.reading).Nodup := by
  refine ⟨hnodup.map_on (fun m hm n hn hstamp => ?_), hnodup.map_on (fun m hm n hn hreading => ?_)⟩
  · obtain ⟨k, v, d, hfirst, rfl⟩ := (hsilver m).1 hm
    obtain ⟨k', v', d', hfirst', rfl⟩ := (hsilver n).1 hn
    simp only [SilverMacroRow.stamp, sightingRow, Prod.mk.injEq, Option.some.injEq] at hstamp
    obtain ⟨hseries, hobservation, rfl⟩ := hstamp
    obtain rfl : k = k' := Prod.ext hseries hobservation
    rw [hfirst.value_unique hinc hfirst']
  · obtain ⟨k, v, d, hfirst, rfl⟩ := (hsilver m).1 hm
    obtain ⟨k', v', d', hfirst', rfl⟩ := (hsilver n).1 hn
    have hsame : sighting k v = sighting k' v' := hreading
    obtain ⟨rfl, rfl⟩ := sighting_inj hsame
    rw [hfirst.stamp_unique hfirst']

theorem macroSource_settled (h : Trails pre [] lake) (hinc : Increasing ((pre ++ []).map MacroPull.pull)) :
    macroSource lake.objects.rows lake.silver = [] := by
  refine List.eq_nil_iff_forall_not_mem.2 (fun s hs => ?_)
  obtain ⟨k, v, d, ⟨⟨p, hp, -⟩, -⟩, -⟩ := (mem_macroSource_iff hinc h.rows h.silver).1 hs
  cases hp

theorem Trails.placed (h : Trails pre post lake) (hinc : Increasing ((pre ++ post).map MacroPull.pull)) :
    lake.Placed (pre ++ post) := by
  have hmerged := h.merge hinc
  have hexec := h.exec_merge hinc
  have hall : ∀ m, m ∈ (lake.exec .merge).silver ↔
      ∃ k v d, FirstSeen ((pre ++ post).map MacroPull.pull) k v d ∧ m = sightingRow k v d := hmerged.silver
  obtain ⟨hstamps, hreadings⟩ := sightings_nodup hinc hmerged.nodup hall
  have hnone : ∀ m, m ∈ ([] : List SilverMacroRow) ↔
      ∃ k v d, FirstSeen (([] : List MacroPull).map MacroPull.pull) k v d ∧ m = sightingRow k v d := by
    simp [FirstSeen]
  have hsingle : mergeSilverMacro lake.objects.rows [] = .ok ([] ++ macroSource lake.objects.rows []) :=
    @mergeSilverMacro_ok [] (pre ++ post) _ [] hinc h.rows hnone
  have hperm : (lake.exec .merge).silver.Perm ([] ++ macroSource lake.objects.rows []) := by
    refine (List.perm_ext_iff_of_nodup hmerged.nodup (macroSource_nodup _ _)).2 (fun m => ?_)
    rw [hall m]
    exact (@mem_merged_sightings [] (pre ++ post) _ [] hinc h.rows hnone m).symm
  have hinc' : Increasing (((pre ++ post) ++ []).map MacroPull.pull) := by
    rw [List.append_nil]
    exact hinc
  have hagain : (lake.exec .merge).exec .merge = lake.exec .merge := by
    rw [hmerged.exec_merge hinc', macroSource_settled hmerged hinc', List.append_nil]
  have hkeeps : lake.silver <+: (lake.exec .merge).silver := by
    rw [hexec]
    exact List.prefix_append _ _
  have hok : (mergeSilverMacro lake.objects.rows lake.silver).isOk = true := by
    rw [mergeSilverMacro_ok hinc h.rows h.silver]
    rfl
  exact ⟨h.rows, hok, ⟨_, hsingle, hperm⟩, hstamps, hreadings, fun m hm => (hall m).1 hm, hkeeps, hagain⟩

theorem placed_run (calls : List MacroCall) (hinc : Increasing ((pullsOf calls).map MacroPull.pull)) :
    (calls.foldl MacroLake.exec MacroLake.empty).Placed (pullsOf calls) := by
  obtain ⟨pre, post, hsplit, h⟩ := trails_run calls hinc
  rw [hsplit] at hinc ⊢
  exact h.placed hinc

/-- **When the merge runs does not matter**: wherever merges stood, a merge goes through, keeps every row, and leaves what
one merge over the whole of Bronze makes of an empty table; each value of an observation once, under the earliest vintage
that showed it, and a merge after it adds nothing. -/
theorem macroPlacement (schedule : MacroSchedule) : schedule.lake.Placed schedule.pulls :=
  placed_run schedule.calls (List.pairwise_map.2 schedule.increasing)

/-- No merge after the pull of April, and two after that of July. -/
def lateMerges : MacroSchedule where
  calls := [.collect (augustPull 20468 "323.364"), .merge, .collect (augustPull 20558 "323.291"),
    .collect (augustPull 20649 "323.364"), .merge, .merge]
  increasing := by decide

/-- The revision of April has its own vintage. -/
theorem macroPlacement_lateMerges : lateMerges.lake.Placed lateMerges.pulls ∧
    lateMerges.lake.silver.map SilverMacroRow.vintageDate = [some 20468, some 20558] :=
  ⟨macroPlacement lateMerges, by decide +kernel⟩

/-! ## A merge after every pull -/

theorem foldl_step_eq (pulls : List MacroPull) (lake : MacroLake) : pulls.foldl MacroLake.step lake =
    (pulls.flatMap (fun p => [.collect p, .merge])).foldl MacroLake.exec lake := by
  induction pulls generalizing lake with
  | nil => rfl
  | cons p pulls ih =>
    rw [List.foldl_cons, List.flatMap_cons, List.foldl_append, ih, lake.step_eq p]
    rfl

theorem pullsOf_flatMap (pulls : List MacroPull) :
    pullsOf (pulls.flatMap (fun p => [.collect p, .merge])) = pulls := by
  induction pulls with
  | nil => rfl
  | cons p pulls ih =>
    rw [List.flatMap_cons, pullsOf, List.filterMap_append, ← pullsOf, ← pullsOf, ih]
    rfl

/-- **A merge right after every pull** is placed like any other. -/
theorem MacroHistory.placed (history : MacroHistory) : history.lake.Placed history.pulls := by
  have hinc : Increasing (history.pulls.map MacroPull.pull) := List.pairwise_map.2 history.increasing
  rw [← pullsOf_flatMap history.pulls] at hinc
  have hplaced := placed_run _ hinc
  rwa [pullsOf_flatMap, ← foldl_step_eq] at hplaced

end Awsnative
