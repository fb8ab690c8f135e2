import RealtimeFinance.Vintages
import RealtimeFinance.Sql.Nullable
import RealtimeFinance.Sql.GroupBy
import RealtimeFinance.Sql.Instant
import RealtimeFinance.Sql.Upsert
/-!
# SilverMacro — `merge_silver_macro.sql`, and the value in force

Every pull writes the whole history of its series as it stands on the pull's vintage, one object a vintage.  The merge
inserts an observation only with a value that Silver has never had for it, stamped with the first vintage that showed
the value; a reader takes the greatest vintage up to its date.  So Silver is the first sightings of the pulls
(`mem_silverMacro_iff`), and a value that is revised and revised back stays at the revision (`macroPointInTime_iff`).
A date is its day, in Bronze too.
-/
namespace Awsnative

open Sql Vintages

structure BronzeMacroRow where
  seriesId : Option String
  observationDate : Option Int
  vintageDate : Option Int
  value : Option String
  deriving DecidableEq

structure SilverMacroRow where
  seriesId : Option String
  observationDate : Option Int
  vintageDate : Option Int
  value : Option (Decimal 38 18)
  knowledgeTsUs : Option Int
  sourceTier : Option String
  deriving DecidableEq

/-! ## The merge -/

/-- `try_cast(NULLIF(b.value, '') AS DECIMAL(38, 18))`. -/
def macroValue (text : Option String) : Option (Decimal 38 18) :=
  if text = some "" then none else tryCastDecimal 38 18 text

/-- What `GROUP BY` groups: series, observation date and value. -/
abbrev MacroGroup := Option String × Option Int × Option (Decimal 38 18)

def BronzeMacroRow.group (b : BronzeMacroRow) : MacroGroup := (b.seriesId, b.observationDate, macroValue b.value)

/-- The rows of `p` that have a series and a value. -/
def macroRows (bronze : List BronzeMacroRow) : List BronzeMacroRow :=
  bronze.filter (fun b => b.seriesId.isSome && (macroValue b.value).isSome)

/-- `to_unixtime(CAST(vintage_date + interval '1' day AS TIMESTAMP)) * 1000000`: whole seconds, exact as a double. -/
def knowledgeTsUs (vintageDate : Int) : Int := (vintageDate + 1) * microsPerDay

def macroRow (bronze : List BronzeMacroRow) (g : MacroGroup) : SilverMacroRow :=
  let vintageDate := ((groupRows BronzeMacroRow.group g (macroRows bronze)).filterMap BronzeMacroRow.vintageDate).min?
  { seriesId := g.1, observationDate := g.2.1, vintageDate, value := g.2.2
    knowledgeTsUs := vintageDate.map knowledgeTsUs, sourceTier := some "ALFRED" }

/-- The row that the `NOT EXISTS` looks for. -/
def hasValue (f m : SilverMacroRow) : Bool :=
  decide (and3 (equals m.seriesId f.seriesId)
    (and3 (equals m.observationDate f.observationDate) (equals m.value f.value)) = some true)

def macroSource (bronze : List BronzeMacroRow) (silver : List SilverMacroRow) : List SilverMacroRow :=
  ((groupKeys BronzeMacroRow.group (macroRows bronze)).map (macroRow bronze)).filter (fun f => !silver.any (hasValue f))

/-- `ON` series, observation date and vintage date, and no `WHEN MATCHED`. -/
def macroMerge : MergeInto SilverMacroRow where
  on s t := and3 (equals t.seriesId s.seriesId)
    (and3 (equals t.observationDate s.observationDate) (equals t.vintageDate s.vintageDate))

def mergeSilverMacro (bronze : List BronzeMacroRow) (silver : List SilverMacroRow) :
    Except Error (List SilverMacroRow) := macroMerge.run (macroSource bronze silver) silver

/-! ## Pulls -/

structure MacroObservation where
  seriesId : String
  observationDate : Int
  value : String
  deriving DecidableEq

def MacroObservation.key (o : MacroObservation) : String × Int := (o.seriesId, o.observationDate)

/-- The observations of one vintage, one value each. -/
structure MacroPull where
  vintageDate : Int
  observations : List MacroObservation
  oneValue : (observations.map MacroObservation.key).Nodup

/-- The rows of the pull's object. -/
def MacroPull.rows (p : MacroPull) : List BronzeMacroRow :=
  p.observations.map fun o =>
    { seriesId := some o.seriesId, observationDate := some o.observationDate, vintageDate := some p.vintageDate
      value := some o.value }

/-- `bronze_macro_observations`, its objects under the vintage of their key. -/
abbrev MacroObjects := List (Int × List BronzeMacroRow)

/-- `put(macro_key(vintage_date), …)`: a second pull of a vintage overwrites the first. -/
def MacroObjects.put (objects : MacroObjects) (vintageDate : Int) (rows : List BronzeMacroRow) : MacroObjects :=
  objects.filter (fun o => decide (o.1 ≠ vintageDate)) ++ [(vintageDate, rows)]

def MacroObjects.rows (objects : MacroObjects) : List BronzeMacroRow := objects.flatMap Prod.snd

structure MacroLake where
  objects : MacroObjects
  silver : List SilverMacroRow

def MacroLake.empty : MacroLake := ⟨[], []⟩

/-- A pull, and the merge after it. -/
def MacroLake.step (lake : MacroLake) (p : MacroPull) : MacroLake :=
  let objects := lake.objects.put p.vintageDate p.rows
  match mergeSilverMacro objects.rows lake.silver with
  | .ok silver => { objects, silver }
  | .error _   => { lake with objects }

/-- Pulls in the order of their vintages. -/
structure MacroHistory where
  pulls : List MacroPull
  increasing : pulls.Pairwise (fun p q => p.vintageDate < q.vintageDate)

def MacroHistory.lake (history : MacroHistory) : MacroLake := history.pulls.foldl MacroLake.step MacroLake.empty

/-! ## The value in force -/

/-- `max(j.vintage_date)` of the observation's rows up to the date. -/
def vintageInForce (silver : List SilverMacroRow) (seriesId : String) (observationDate asOf : Int) : Option Int :=
  ((silver.filter (fun m => decide (m.seriesId = some seriesId ∧ m.observationDate = some observationDate))).filterMap
    SilverMacroRow.vintageDate |>.filter (fun d => decide (d ≤ asOf))).max?

/-- The rows of the observation with that vintage. -/
def inForce (silver : List SilverMacroRow) (seriesId : String) (observationDate asOf : Int) : List SilverMacroRow :=
  silver.filter fun m => decide (m.seriesId = some seriesId ∧ m.observationDate = some observationDate ∧
    m.vintageDate.isSome ∧ m.vintageDate = vintageInForce silver seriesId observationDate asOf)

/-- The pull as a map from observation to value. -/
def MacroPull.pull (p : MacroPull) : Pull (String × Int) (Decimal 38 18) where
  vintage := p.vintageDate
  reports k := (rowOf MacroObservation.key k p.observations).bind (fun o => macroValue (some o.value))

def MacroHistory.reports (history : MacroHistory) : List (Pull (String × Int) (Decimal 38 18)) :=
  history.pulls.map MacroPull.pull

/-- **As of every date, Silver carries what the latest pull up to it reported.** -/
def MacroPointInTime (history : MacroHistory) : Prop :=
  ∀ seriesId observationDate asOf p v, Latest history.reports asOf p → p.reports (seriesId, observationDate) = some v →
    inForce history.lake.silver seriesId observationDate asOf ≠ [] ∧
      ∀ m ∈ inForce history.lake.silver seriesId observationDate asOf, m.value = some v

/-! ## Silver is the first sightings -/

def sightingRow (k : String × Int) (v : Decimal 38 18) (d : Int) : SilverMacroRow :=
  { seriesId := some k.1, observationDate := some k.2, vintageDate := some d, value := some v
    knowledgeTsUs := some (knowledgeTsUs d), sourceTier := some "ALFRED" }

theorem reports_iff {p : MacroPull} {k : String × Int} {v : Decimal 38 18} : p.pull.reports k = some v ↔
    ∃ o ∈ p.observations, o.key = k ∧ macroValue (some o.value) = some v := by
  have hu : UniqueKeys MacroObservation.key (fun _ => true) p.observations := uniqueKeys_of_nodup p.oneValue
  show (rowOf MacroObservation.key k p.observations).bind _ = some v ↔ _
  rw [Option.bind_eq_some_iff]
  constructor
  · rintro ⟨o, hfind, hv⟩
    have hkey := List.find?_some hfind
    exact ⟨o, List.mem_of_find?_eq_some hfind, by simpa using hkey, hv⟩
  · rintro ⟨o, ho, rfl, hv⟩
    exact ⟨o, rowOf_eq_of_mem hu ho rfl, hv⟩

/-- The lake after some pulls. -/
structure Follows (pulls : List MacroPull) (lake : MacroLake) : Prop where
  vintages : ∀ o ∈ lake.objects, ∃ p ∈ pulls, o.1 = p.vintageDate
  rows : ∀ b, b ∈ lake.objects.rows ↔ ∃ p ∈ pulls, b ∈ p.rows
  silver : ∀ m, m ∈ lake.silver ↔ ∃ k v d, FirstSeen (pulls.map MacroPull.pull) k v d ∧ m = sightingRow k v d

theorem mem_rows_iff {p : MacroPull} {b : BronzeMacroRow} : b ∈ p.rows ↔ ∃ o ∈ p.observations,
    b = ⟨some o.seriesId, some o.observationDate, some p.vintageDate, some o.value⟩ := by
  unfold MacroPull.rows
  rw [List.mem_map]
  exact exists_congr (fun o => and_congr_right (fun _ => eq_comm))

theorem mem_macroRows {bronze : List BronzeMacroRow} {b : BronzeMacroRow} :
    b ∈ macroRows bronze ↔ b ∈ bronze ∧ b.seriesId.isSome = true ∧ (macroValue b.value).isSome = true := by
  unfold macroRows
  rw [List.mem_filter, Bool.and_eq_true]

/-- The group of an observation with a value. -/
def sighting (k : String × Int) (v : Decimal 38 18) : MacroGroup := (some k.1, some k.2, some v)

theorem sighting_inj {k k' : String × Int} {v v' : Decimal 38 18} (h : sighting k v = sighting k' v') :
    k = k' ∧ v = v' := by
  unfold sighting at h
  simp only [Prod.mk.injEq, Option.some.injEq] at h
  exact ⟨Prod.ext h.1 h.2.1, h.2.2⟩

/-- **The rows of a group are the pulls that reported its value.** -/
theorem mem_group_iff {pulls : List MacroPull} {bronze : List BronzeMacroRow}
    (hrows : ∀ b, b ∈ bronze ↔ ∃ p ∈ pulls, b ∈ p.rows) {g : MacroGroup} {d : Int} :
    (∃ b ∈ macroRows bronze, b.group = g ∧ b.vintageDate = some d) ↔
      ∃ k v, g = sighting k v ∧ ∃ p ∈ pulls, p.vintageDate = d ∧ p.pull.reports k = some v := by
  constructor
  · rintro ⟨b, hb, rfl, hd⟩
    obtain ⟨hb, -, hv⟩ := mem_macroRows.1 hb
    obtain ⟨p, hp, hbp⟩ := (hrows b).1 hb
    obtain ⟨o, ho, rfl⟩ := mem_rows_iff.1 hbp
    obtain ⟨v, hv⟩ := Option.isSome_iff_exists.1 hv
    refine ⟨o.key, v, ?_, p, hp, Option.some.inj hd, reports_iff.2 ⟨o, ho, rfl, hv⟩⟩
    unfold BronzeMacroRow.group sighting MacroObservation.key
    rw [hv]
  · rintro ⟨k, v, rfl, p, hp, rfl, hreports⟩
    obtain ⟨o, ho, rfl, hv⟩ := reports_iff.1 hreports
    refine ⟨_, mem_macroRows.2 ⟨(hrows _).2 ⟨p, hp, mem_rows_iff.2 ⟨o, ho, rfl⟩⟩, rfl, ?_⟩, ?_, rfl⟩
    · rw [hv]
      rfl
    · unfold BronzeMacroRow.group sighting MacroObservation.key
      rw [hv]

theorem mem_macroGroups_iff {pulls : List MacroPull} {bronze : List BronzeMacroRow}
    (hrows : ∀ b, b ∈ bronze ↔ ∃ p ∈ pulls, b ∈ p.rows) {g : MacroGroup} :
    g ∈ groupKeys BronzeMacroRow.group (macroRows bronze) ↔
      ∃ k v, g = sighting k v ∧ Reported (pulls.map MacroPull.pull) k v := by
  rw [mem_groupKeys]
  constructor
  · rintro ⟨b, hb, hg⟩
    obtain ⟨p, -, hbp⟩ := (hrows b).1 (mem_macroRows.1 hb).1
    obtain ⟨o, -, hbo⟩ := mem_rows_iff.1 hbp
    have hd : b.vintageDate = some p.vintageDate := by rw [hbo]
    obtain ⟨k, v, rfl, q, hq, -, hreports⟩ := (mem_group_iff hrows).1 ⟨b, hb, hg, hd⟩
    exact ⟨k, v, rfl, q.pull, List.mem_map_of_mem hq, hreports⟩
  · rintro ⟨k, v, rfl, _, hmem, hreports⟩
    obtain ⟨q, hq, rfl⟩ := List.mem_map.1 hmem
    obtain ⟨b, hb, hg, -⟩ := (mem_group_iff hrows).2 ⟨k, v, rfl, q, hq, rfl, hreports⟩
    exact ⟨b, hb, hg⟩

/-- **A group is stamped with the first sighting of its value.** -/
theorem macroRow_sighting {pulls : List MacroPull} {bronze : List BronzeMacroRow}
    (hrows : ∀ b, b ∈ bronze ↔ ∃ p ∈ pulls, b ∈ p.rows) {k : String × Int} {v : Decimal 38 18} {d : Int}
    (hfirst : FirstSeen (pulls.map MacroPull.pull) k v d) : macroRow bronze (sighting k v) = sightingRow k v d := by
  have hstamps : ∀ e, e ∈ (groupRows BronzeMacroRow.group (sighting k v) (macroRows bronze)).filterMap
      BronzeMacroRow.vintageDate ↔ ∃ p ∈ pulls, p.vintageDate = e ∧ p.pull.reports k = some v := by
    intro e
    rw [List.mem_filterMap]
    have hiff := mem_group_iff hrows (g := sighting k v) (d := e)
    constructor
    · rintro ⟨b, hb, he⟩
      obtain ⟨hb, hg⟩ := mem_groupRows.1 hb
      obtain ⟨k', v', hsame, h⟩ := hiff.1 ⟨b, hb, hg, he⟩
      obtain ⟨rfl, rfl⟩ := sighting_inj hsame
      exact h
    · intro h
      obtain ⟨b, hb, hg, he⟩ := hiff.2 ⟨k, v, rfl, h⟩
      exact ⟨b, mem_groupRows.2 ⟨hb, hg⟩, he⟩
  obtain ⟨⟨_, hmem, rfl, hv⟩, hmin⟩ := hfirst
  obtain ⟨p, hp, rfl⟩ := List.mem_map.1 hmem
  have hvintage : ((groupRows BronzeMacroRow.group (sighting k v) (macroRows bronze)).filterMap
      BronzeMacroRow.vintageDate).min? = some p.vintageDate := by
    rw [List.min?_eq_some_iff]
    refine ⟨(hstamps _).2 ⟨p, hp, rfl, hv⟩, fun e he => ?_⟩
    obtain ⟨q, hq, rfl, hqv⟩ := (hstamps e).1 he
    exact hmin q.pull (List.mem_map_of_mem hq) hqv
  unfold macroRow
  rw [hvintage]
  rfl

theorem hasValue_iff {f : SilverMacroRow} {k k' : String × Int} {v v' : Decimal 38 18} {d d' : Int}
    (hf : f = sightingRow k v d) : hasValue f (sightingRow k' v' d') = true ↔ k' = k ∧ v' = v := by
  subst hf
  unfold hasValue sightingRow
  rw [decide_eq_true_eq, and3_eq_true, and3_eq_true, equals_eq_true, equals_eq_true, equals_eq_true]
  simp [Prod.ext_iff, and_assoc]

/-- **Silver has a value of an observation exactly when** some pull has reported it. -/
theorem silverHas_iff {pre : List MacroPull} {silver : List SilverMacroRow} (hinc : Increasing (pre.map MacroPull.pull))
    (hsilver : ∀ m, m ∈ silver ↔ ∃ k v d, FirstSeen (pre.map MacroPull.pull) k v d ∧ m = sightingRow k v d)
    {k : String × Int} {v : Decimal 38 18} {d : Int} :
    silver.any (hasValue (sightingRow k v d)) = true ↔ Reported (pre.map MacroPull.pull) k v := by
  rw [List.any_eq_true]
  constructor
  · rintro ⟨m, hm, hvalue⟩
    obtain ⟨k', v', d', hfirst, rfl⟩ := (hsilver m).1 hm
    obtain ⟨rfl, rfl⟩ := (hasValue_iff rfl).1 hvalue
    exact hfirst.reported
  · intro hreported
    obtain ⟨e, hfirst⟩ := hreported.firstSeen hinc
    exact ⟨_, (hsilver _).2 ⟨k, v, e, hfirst, rfl⟩, (hasValue_iff rfl).2 ⟨rfl, rfl⟩⟩

/-- **The source of a merge is the first sightings that are new** since the pulls of the merge before it. -/
theorem mem_macroSource_iff {pre post : List MacroPull} {bronze : List BronzeMacroRow}
    {silver : List SilverMacroRow} (hinc : Increasing ((pre ++ post).map MacroPull.pull))
    (hrows : ∀ b, b ∈ bronze ↔ ∃ q ∈ pre ++ post, b ∈ q.rows)
    (hsilver : ∀ m, m ∈ silver ↔ ∃ k v d, FirstSeen (pre.map MacroPull.pull) k v d ∧ m = sightingRow k v d)
    {s : SilverMacroRow} : s ∈ macroSource bronze silver ↔ ∃ k v d, FirstSeen (post.map MacroPull.pull) k v d ∧
      ¬ Reported (pre.map MacroPull.pull) k v ∧ s = sightingRow k v d := by
  have hsplit : ∀ k v d, FirstSeen ((pre ++ post).map MacroPull.pull) k v d ↔
      FirstSeen (pre.map MacroPull.pull) k v d ∨
        FirstSeen (post.map MacroPull.pull) k v d ∧ ¬ Reported (pre.map MacroPull.pull) k v := by
    intro k v d
    rw [List.map_append] at hinc ⊢
    exact firstSeen_append_iff hinc
  have hseen : ∀ k v d, silver.any (hasValue (sightingRow k v d)) = true ↔ Reported (pre.map MacroPull.pull) k v :=
    fun k v d => silverHas_iff (by rw [List.map_append] at hinc; exact hinc.of_append) hsilver
  unfold macroSource
  rw [List.mem_filter, List.mem_map]
  constructor
  · rintro ⟨⟨g, hg, rfl⟩, hnew⟩
    obtain ⟨k, v, rfl, hreported⟩ := (mem_macroGroups_iff hrows).1 hg
    obtain ⟨d, hfirst⟩ := hreported.firstSeen hinc
    rw [macroRow_sighting hrows hfirst] at hnew ⊢
    have hnot : ¬ Reported (pre.map MacroPull.pull) k v := by
      intro hold
      rw [(hseen k v d).2 hold] at hnew
      cases hnew
    rcases (hsplit k v d).1 hfirst with hfirst | ⟨hfirst, -⟩
    · exact absurd hfirst.reported hnot
    · exact ⟨k, v, d, hfirst, hnot, rfl⟩
  · rintro ⟨k, v, d, hfirst, hnot, rfl⟩
    have hfirst : FirstSeen ((pre ++ post).map MacroPull.pull) k v d := (hsplit k v d).2 (Or.inr ⟨hfirst, hnot⟩)
    refine ⟨⟨sighting k v, (mem_macroGroups_iff hrows).2 ⟨k, v, rfl, hfirst.reported⟩, macroRow_sighting hrows hfirst⟩, ?_⟩
    have hnone : silver.any (hasValue (sightingRow k v d)) = false := by
      rw [← Bool.not_eq_true, hseen]
      exact hnot
    rw [hnone]
    rfl

/-- **A merge goes through and adds its source**: no vintage shows two values of one observation, so the `ON` finds no
row of a value that the `NOT EXISTS` let pass. -/
theorem mergeSilverMacro_ok {pre post : List MacroPull} {bronze : List BronzeMacroRow}
    {silver : List SilverMacroRow} (hinc : Increasing ((pre ++ post).map MacroPull.pull))
    (hrows : ∀ b, b ∈ bronze ↔ ∃ q ∈ pre ++ post, b ∈ q.rows)
    (hsilver : ∀ m, m ∈ silver ↔ ∃ k v d, FirstSeen (pre.map MacroPull.pull) k v d ∧ m = sightingRow k v d) :
    mergeSilverMacro bronze silver = .ok (silver ++ macroSource bronze silver) := by
  refine MergeInto.run_eq_append (fun s hs t ht => ?_)
  obtain ⟨k, v, d, ⟨⟨_, hmem, rfl, -⟩, -⟩, -, rfl⟩ := (mem_macroSource_iff hinc hrows hsilver).1 hs
  obtain ⟨k', v', d', ⟨⟨_, hmem', rfl, -⟩, -⟩, rfl⟩ := (hsilver t).1 ht
  obtain ⟨p, hp, rfl⟩ := List.mem_map.1 hmem
  obtain ⟨q, hq, rfl⟩ := List.mem_map.1 hmem'
  rw [List.map_append] at hinc
  have hlt : q.vintageDate < p.vintageDate :=
    (List.pairwise_append.1 hinc).2.2 q.pull (List.mem_map_of_mem hq) p.pull (List.mem_map_of_mem hp)
  unfold MergeInto.hits macroMerge sightingRow
  rw [decide_eq_false_iff_not, and3_eq_true, and3_eq_true, equals_eq_true, equals_eq_true, equals_eq_true]
  rintro ⟨-, -, hsame, -⟩
  have hequal : q.vintageDate = p.vintageDate := Option.some.inj hsame
  omega

/-- **Merged, Silver is the first sightings of every pull so far.** -/
theorem mem_merged_sightings {pre post : List MacroPull} {bronze : List BronzeMacroRow}
    {silver : List SilverMacroRow} (hinc : Increasing ((pre ++ post).map MacroPull.pull))
    (hrows : ∀ b, b ∈ bronze ↔ ∃ q ∈ pre ++ post, b ∈ q.rows)
    (hsilver : ∀ m, m ∈ silver ↔ ∃ k v d, FirstSeen (pre.map MacroPull.pull) k v d ∧ m = sightingRow k v d)
    {m : SilverMacroRow} : m ∈ silver ++ macroSource bronze silver ↔
      ∃ k v d, FirstSeen ((pre ++ post).map MacroPull.pull) k v d ∧ m = sightingRow k v d := by
  rw [List.mem_append, hsilver m, mem_macroSource_iff hinc hrows hsilver]
  rw [List.map_append] at hinc ⊢
  constructor
  · rintro (⟨k, v, d, hfirst, rfl⟩ | ⟨k, v, d, hfirst, hnew, rfl⟩)
    · exact ⟨k, v, d, (firstSeen_append_iff hinc).2 (Or.inl hfirst), rfl⟩
    · exact ⟨k, v, d, (firstSeen_append_iff hinc).2 (Or.inr ⟨hfirst, hnew⟩), rfl⟩
  · rintro ⟨k, v, d, hfirst, rfl⟩
    rcases (firstSeen_append_iff hinc).1 hfirst with hfirst | ⟨hfirst, hnew⟩
    · exact Or.inl ⟨k, v, d, hfirst, rfl⟩
    · exact Or.inr ⟨k, v, d, hfirst, hnew, rfl⟩

theorem Follows.empty : Follows [] MacroLake.empty where
  vintages o ho := by cases ho
  rows b := by simp [MacroLake.empty, MacroObjects.rows]
  silver m := by simp [MacroLake.empty, FirstSeen]

/-- **A pull adds its object**, as no object has its vintage yet. -/
theorem objects_put {pre : List MacroPull} {objects : MacroObjects} {p : MacroPull}
    (hinc : Increasing ((pre ++ [p]).map MacroPull.pull)) (hvintages : ∀ o ∈ objects, ∃ q ∈ pre, o.1 = q.vintageDate)
    (hrows : ∀ b, b ∈ objects.rows ↔ ∃ q ∈ pre, b ∈ q.rows) :
    (∀ o ∈ objects.put p.vintageDate p.rows, ∃ q ∈ pre ++ [p], o.1 = q.vintageDate) ∧
    ∀ b, b ∈ (objects.put p.vintageDate p.rows).rows ↔ ∃ q ∈ pre ++ [p], b ∈ q.rows := by
  have hput : objects.put p.vintageDate p.rows = objects ++ [(p.vintageDate, p.rows)] := by
    unfold MacroObjects.put
    rw [List.filter_eq_self.2]
    intro o ho
    obtain ⟨q, hq, hoq⟩ := hvintages o ho
    rw [List.map_append, List.map_singleton] at hinc
    have hlt : q.vintageDate < p.vintageDate := hinc.before q.pull (List.mem_map_of_mem hq)
    rw [decide_eq_true_eq, hoq]
    omega
  rw [hput]
  refine ⟨fun o ho => ?_, fun b => ?_⟩
  · rcases List.mem_append.1 ho with ho | ho
    · obtain ⟨q, hq, hoq⟩ := hvintages o ho
      exact ⟨q, List.mem_append_left _ hq, hoq⟩
    · rw [List.mem_singleton.1 ho]
      exact ⟨p, List.mem_append_right _ (List.mem_singleton.2 rfl), rfl⟩
  · have hpre : b ∈ objects.flatMap Prod.snd ↔ ∃ q ∈ pre, b ∈ q.rows := hrows b
    unfold MacroObjects.rows
    rw [List.flatMap_append, List.mem_append, hpre]
    simp [or_and_right, exists_or]

/-- **Silver follows the pulls.** -/
theorem Follows.step {pre : List MacroPull} {lake : MacroLake} {p : MacroPull} (h : Follows pre lake)
    (hinc : Increasing ((pre ++ [p]).map MacroPull.pull)) : Follows (pre ++ [p]) (lake.step p) := by
  obtain ⟨hvintages, hrows⟩ := objects_put hinc h.vintages h.rows
  have hmerge := mergeSilverMacro_ok hinc hrows h.silver
  have hstep : lake.step p = ⟨lake.objects.put p.vintageDate p.rows, lake.silver ++
      macroSource (lake.objects.put p.vintageDate p.rows).rows lake.silver⟩ := by
    unfold MacroLake.step
    simp only [hmerge]
  rw [hstep]
  exact ⟨hvintages, hrows, fun m => mem_merged_sightings hinc hrows h.silver⟩

theorem MacroHistory.reports_increasing (history : MacroHistory) : Increasing history.reports :=
  List.pairwise_map.2 history.increasing

/-- **Silver is the first sightings of the history.** -/
theorem mem_silverMacro_iff (history : MacroHistory) (m : SilverMacroRow) : m ∈ history.lake.silver ↔
    ∃ k v d, FirstSeen history.reports k v d ∧ m = sightingRow k v d := by
  have hfollows : ∀ pulls : List MacroPull, Increasing (pulls.map MacroPull.pull) →
      Follows pulls (pulls.foldl MacroLake.step MacroLake.empty) := by
    intro pulls
    induction pulls using List.reverseRecOn with
    | nil => exact fun _ => Follows.empty
    | append_singleton pre p ih =>
      intro hinc
      rw [List.foldl_append]
      refine (ih ?_).step hinc
      rw [List.map_append] at hinc
      exact hinc.of_append
  exact (hfollows history.pulls history.reports_increasing).silver m

/-! ## As of a date -/

/-- The vintages the as-of lookup takes the greatest of. -/
theorem mem_vintages_iff (history : MacroHistory) {seriesId : String} {observationDate asOf e : Int} :
    e ∈ ((history.lake.silver.filter (fun m => decide (m.seriesId = some seriesId ∧
      m.observationDate = some observationDate))).filterMap SilverMacroRow.vintageDate).filter
        (fun d => decide (d ≤ asOf)) ↔ e ≤ asOf ∧ ∃ v, FirstSeen history.reports (seriesId, observationDate) v e := by
  rw [List.mem_filter, List.mem_filterMap, decide_eq_true_eq, and_comm]
  refine and_congr_right (fun _ => ?_)
  constructor
  · rintro ⟨m, hm, he⟩
    obtain ⟨hm, hkey⟩ := List.mem_filter.1 hm
    obtain ⟨k, v, d, hfirst, rfl⟩ := (mem_silverMacro_iff history m).1 hm
    obtain ⟨hseries, hobservation⟩ := of_decide_eq_true hkey
    have hk : k = (seriesId, observationDate) := Prod.ext (Option.some.inj hseries) (Option.some.inj hobservation)
    cases he
    rw [hk] at hfirst
    exact ⟨v, hfirst⟩
  · rintro ⟨v, hfirst⟩
    exact ⟨sightingRow (seriesId, observationDate) v e, List.mem_filter.2
      ⟨(mem_silverMacro_iff history _).2 ⟨_, v, e, hfirst, rfl⟩, decide_eq_true ⟨rfl, rfl⟩⟩, rfl⟩

theorem vintageInForce_eq_some (history : MacroHistory) {seriesId : String} {observationDate asOf d : Int} :
    vintageInForce history.lake.silver seriesId observationDate asOf = some d ↔
      (d ≤ asOf ∧ ∃ v, FirstSeen history.reports (seriesId, observationDate) v d) ∧
        ∀ w e, FirstSeen history.reports (seriesId, observationDate) w e → e ≤ asOf → e ≤ d := by
  unfold vintageInForce
  rw [List.max?_eq_some_iff, mem_vintages_iff]
  refine and_congr_right (fun _ => ?_)
  constructor
  · exact fun h w e hfirst he => h e ((mem_vintages_iff history).2 ⟨he, w, hfirst⟩)
  · intro h e he
    obtain ⟨hle, w, hfirst⟩ := (mem_vintages_iff history).1 he
    exact h w e hfirst hle

/-- **The rows in force carry the abstract value in force.** -/
theorem mem_inForce_iff (history : MacroHistory) {seriesId : String} {observationDate asOf : Int} {m : SilverMacroRow} :
    m ∈ inForce history.lake.silver seriesId observationDate asOf ↔ ∃ v d, m = sightingRow (seriesId, observationDate) v d ∧
      FirstSeen history.reports (seriesId, observationDate) v d ∧ d ≤ asOf ∧
      ∀ w e, FirstSeen history.reports (seriesId, observationDate) w e → e ≤ asOf → e ≤ d := by
  unfold inForce
  rw [List.mem_filter, decide_eq_true_eq, mem_silverMacro_iff]
  constructor
  · rintro ⟨⟨k, v, d, hfirst, rfl⟩, hseries, hobservation, -, hvintage⟩
    have hk : k = (seriesId, observationDate) := Prod.ext (Option.some.inj hseries) (Option.some.inj hobservation)
    subst hk
    obtain ⟨⟨hle, -⟩, hlast⟩ := (vintageInForce_eq_some history).1 hvintage.symm
    exact ⟨v, d, rfl, hfirst, hle, hlast⟩
  · rintro ⟨v, d, rfl, hfirst, hle, hlast⟩
    exact ⟨⟨_, v, d, hfirst, rfl⟩, rfl, rfl, rfl, ((vintageInForce_eq_some history).2 ⟨⟨hle, v, hfirst⟩, hlast⟩).symm⟩

theorem macroPointInTime_iff_pointInTime (history : MacroHistory) :
    MacroPointInTime history ↔ PointInTime history.reports := by
  constructor
  · rintro h ⟨seriesId, observationDate⟩ asOf p v hlatest hv w
    obtain ⟨hne, hall⟩ := h seriesId observationDate asOf p v hlatest hv
    have hvalue : ∀ u, InForce history.reports (seriesId, observationDate) asOf u → u = v := by
      rintro u ⟨d, hfirst, hle, hlast⟩
      have hmem := (mem_inForce_iff history).2 ⟨u, d, rfl, hfirst, hle, hlast⟩
      exact Option.some.inj (hall _ hmem)
    refine ⟨hvalue w, ?_⟩
    rintro rfl
    obtain ⟨m, hm⟩ := List.exists_mem_of_ne_nil _ hne
    obtain ⟨u, d, rfl, hfirst, hle, hlast⟩ := (mem_inForce_iff history).1 hm
    have hu : u = w := Option.some.inj (hall _ hm)
    rw [← hu]
    exact ⟨d, hfirst, hle, hlast⟩
  · intro h seriesId observationDate asOf p v hlatest hv
    have hforce := h (seriesId, observationDate) asOf p v hlatest hv
    obtain ⟨d, hfirst, hle, hlast⟩ := (hforce v).2 rfl
    refine ⟨List.ne_nil_of_mem ((mem_inForce_iff history).2 ⟨v, d, rfl, hfirst, hle, hlast⟩), fun m hm => ?_⟩
    obtain ⟨u, e, rfl, hfirst', hle', hlast'⟩ := (mem_inForce_iff history).1 hm
    rw [← (hforce u).1 ⟨e, hfirst', hle', hlast'⟩]
    rfl

/-- **Silver is right as of every date exactly when** no pull reports a value again that was not the last one reported
for its observation. -/
theorem macroPointInTime_iff (history : MacroHistory) :
    MacroPointInTime history ↔ NeverRevisedBack history.reports :=
  (macroPointInTime_iff_pointInTime history).trans (pointInTime_iff history.reports_increasing)

/-- August 2025 as a pull of the vintage reports it. -/
def augustPull (vintageDate : Int) (value : String) : MacroPull where
  vintageDate := vintageDate
  observations := [{ seriesId := "CPIAUCSL", observationDate := 20301, value }]
  oneValue := List.nodup_singleton _

/-- It is revised in April 2026, and in July back to what it was in January. -/
def revisedBack : MacroHistory where
  pulls := [augustPull 20468 "323.364", augustPull 20558 "323.291", augustPull 20649 "323.364"]
  increasing := by decide

theorem revised_back_value_is_not_in_force : ¬ ∀ history : MacroHistory, MacroPointInTime history := by
  intro h
  have hreported : (augustPull 20649 "323.364").pull.reports ("CPIAUCSL", 20301) = macroValue (some "323.364") := by
    decide
  obtain ⟨v, hv⟩ := Option.isSome_iff_exists.1 (show (macroValue (some "323.364")).isSome = true by decide)
  have hlatest : Latest revisedBack.reports 20649 (augustPull 20649 "323.364").pull := by
    refine ⟨by simp [MacroHistory.reports, revisedBack], by decide, ?_⟩
    intro q _ hq
    exact hq
  have hforce : (inForce revisedBack.lake.silver "CPIAUCSL" 20301 20649).map SilverMacroRow.value =
      [macroValue (some "323.291")] := by
    decide +kernel
  obtain ⟨-, hall⟩ := h revisedBack "CPIAUCSL" 20301 20649 _ v hlatest (hreported.trans hv)
  have hvalues : (inForce revisedBack.lake.silver "CPIAUCSL" 20301 20649).map SilverMacroRow.value ⊆ [some v] := by
    intro value hmem
    obtain ⟨m, hm, rfl⟩ := List.mem_map.1 hmem
    exact List.mem_singleton.2 (hall m hm)
  rw [hforce, ← hv] at hvalues
  exact absurd (hvalues List.mem_cons_self) (by decide)

end Awsnative
