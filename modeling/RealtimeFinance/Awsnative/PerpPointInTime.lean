import Mathlib.Data.List.Induction
import RealtimeFinance.Awsnative.PerpAbsence
import RealtimeFinance.Runs
/-!
# PerpPointInTime — polls and merges in any order

`perp_key` gives every poll an object of its own, and the merge adds to Silver the first poll of each grid point of its
window that Silver has no row of.  So a row is one reading, known from its own poll on, which is inside the grid point's
five minutes; and it stays (`perpPointInTime`).  The day that `perp_key` files a poll under is any: it comes of a division
of doubles.
-/
namespace Awsnative

open Sql Python Runs

/-! ## Polls and merges -/

variable (keyDate : Int → Except Exception Int)

/-- `collect`, over the day that `perp_key` makes of an instant. -/
def PerpPoll.collectAt (poll : PerpPoll) : Except Exception PerpObject := do
  let rows ← poll.rows
  let ingestDate ← keyDate poll.pollTsUs
  return { ingestDate, lines := rows.map PerpContext.toJson }

theorem PerpPoll.collectAt_perpKeyDate (poll : PerpPoll) : poll.collectAt perpKeyDate = poll.collect := rfl

/-- The lake; an object is kept under what varies of its key, the day and the instant. -/
structure PerpLake where
  objects : List ((Int × Int) × PerpObject)
  silver : List SilverPerpRow

def PerpLake.empty : PerpLake := ⟨[], []⟩

def PerpObject.rows (object : PerpObject) : List BronzePerpRow :=
  object.lines.map (fun line => ⟨line, object.ingestDate⟩)

def PerpLake.bronze (lake : PerpLake) : List BronzePerpRow := lake.objects.flatMap (fun o => o.2.rows)

def PerpLake.put (lake : PerpLake) (pollTsUs : Int) (object : PerpObject) : PerpLake :=
  let key := (object.ingestDate, pollTsUs)
  { lake with objects := lake.objects.filter (fun o => decide (o.1 ≠ key)) ++ [(key, object)] }

inductive PerpCall
  | poll (p : PerpPoll)
  | merge (now : Int) (lookbackDays : Nat)

/-- A poll that raises puts nothing, and a merge that fails changes nothing. -/
def PerpLake.exec (lake : PerpLake) : PerpCall → PerpLake
  | .poll p                 =>
    match p.collectAt keyDate with
    | .ok object => lake.put p.pollTsUs object
    | .error _   => lake
  | .merge now lookbackDays =>
    match mergeSilverPerpContext now lookbackDays lake.bronze lake.silver with
    | .ok silver => { lake with silver }
    | .error _   => lake

/-! ## What Silver promises -/

/-- The snapshot is a grid point, and the poll is within the five minutes from it. -/
def SilverPerpRow.OnGrid (s : SilverPerpRow) : Prop :=
  ∃ snapshot knowledge, s.snapshotTsUs = some snapshot ∧ s.knowledgeTsUs = some knowledge ∧
    gridUs ∣ snapshot ∧ snapshot ≤ knowledge ∧ knowledge < snapshot + gridUs

/-- **One Bronze row of the window is the whole of it**: no poll of its instrument and grid point in the window is
before its own. -/
def FirstReading (now : Int) (lookbackDays : Nat) (bronze : List BronzePerpRow) (s : SilverPerpRow) : Prop :=
  ∃ b ∈ bronze, ∃ row : PerpContext, b.line = row.toJson ∧ perpInWindow now lookbackDays b = true ∧
    silverPerpOf b = .ok s ∧ s.instrumentId = some row.instrumentId ∧ s.snapshotTsUs = some row.snapshotTsUs ∧
    s.knowledgeTsUs = some row.pollTsUs ∧
    ∀ b' ∈ bronze, perpInWindow now lookbackDays b' = true → ∀ row' : PerpContext, b'.line = row'.toJson →
      row'.instrumentId = row.instrumentId → row'.snapshotTsUs = row.snapshotTsUs → row.pollTsUs ≤ row'.pollTsUs

/-- The call is a merge that puts the row in. -/
def Inserts (lake : PerpLake) (call : PerpCall) (s : SilverPerpRow) : Prop :=
  ∃ now lookbackDays, call = .merge now lookbackDays ∧ s ∉ lake.silver ∧
    FirstReading now lookbackDays lake.bronze s

/-- **What holds after any calls.** -/
structure PerpLake.PointInTime (calls : List PerpCall) (lake : PerpLake) : Prop where
  onGrid : ∀ s ∈ lake.silver, s.OnGrid
  oneReading : ∀ s ∈ lake.silver,
    SomeStep (PerpLake.exec keyDate) (fun before call => Inserts before call s) PerpLake.empty calls
  onePerGridPoint : (lake.silver.map SilverPerpRow.key).Nodup
  keeps : ∀ call, lake.silver <+: (lake.exec keyDate call).silver
  again : ∀ now lookbackDays, (lake.exec keyDate (.merge now lookbackDays)).exec keyDate (.merge now lookbackDays) =
    lake.exec keyDate (.merge now lookbackDays)
  /-- Nor does a merge over a window that is no wider, after one that went through. -/
  narrower : ∀ now lookbackDays now' lookbackDays',
    (mergeSilverPerpContext now lookbackDays lake.bronze lake.silver).isOk = true →
    currentDate now - (lookbackDays : Nat) ≤ currentDate now' - (lookbackDays' : Nat) →
    (lake.exec keyDate (.merge now lookbackDays)).exec keyDate (.merge now' lookbackDays') =
      lake.exec keyDate (.merge now lookbackDays)

/-! ## Bronze -/

/-- The line is one that a poll wrote. -/
def Polled (b : BronzePerpRow) (row : PerpContext) : Prop :=
  b.line = row.toJson ∧ 0 < row.pollTsUs ∧ row.snapshotTsUs = row.pollTsUs - row.pollTsUs % gridUs

theorem PerpPoll.rows_ok {poll : PerpPoll} {rows : List PerpContext} (h : poll.rows = .ok rows) {row : PerpContext}
    (hrow : row ∈ rows) : 0 < row.pollTsUs ∧ row.snapshotTsUs = row.pollTsUs - row.pollTsUs % gridUs := by
  obtain ⟨premium, -, h⟩ := bind_ok h
  obtain ⟨gathered, -, h⟩ := bind_ok h
  obtain ⟨snapshot, hsnapshot, h⟩ := bind_ok h
  obtain ⟨indexed, -, h⟩ := bind_ok h
  obtain ⟨a, -, hbuild⟩ := (mapM_ok h).2 row hrow
  obtain ⟨next, -, hbuild⟩ := bind_ok hbuild
  obtain ⟨time, -, hbuild⟩ := bind_ok hbuild
  obtain ⟨interestTime, -, hbuild⟩ := bind_ok hbuild
  obtain ⟨observations, -, hbuild⟩ := bind_ok hbuild
  cases hbuild
  unfold floorToGridUs at hsnapshot
  split at hsnapshot
  · cases hsnapshot
  · rename_i hpositive
    cases hsnapshot
    exact ⟨by show 0 < poll.pollTsUs; omega, rfl⟩

theorem PerpPoll.collectAt_polled {poll : PerpPoll} {object : PerpObject} (h : poll.collectAt keyDate = .ok object)
    {b : BronzePerpRow} (hb : b ∈ object.rows) : ∃ row, Polled b row := by
  obtain ⟨rows, hrows, h⟩ := bind_ok h
  obtain ⟨ingestDate, -, h⟩ := bind_ok h
  cases h
  obtain ⟨line, hline, rfl⟩ := List.mem_map.1 hb
  obtain ⟨row, hrow, rfl⟩ := List.mem_map.1 hline
  exact ⟨row, rfl, PerpPoll.rows_ok hrows hrow⟩

/-- **Every row of Bronze was polled.** -/
def PerpLake.AllPolled (lake : PerpLake) : Prop := ∀ b ∈ lake.bronze, ∃ row, Polled b row

theorem PerpLake.AllPolled.put {lake : PerpLake} (h : lake.AllPolled) {poll : PerpPoll} {object : PerpObject}
    (hobject : poll.collectAt keyDate = .ok object) : (lake.put poll.pollTsUs object).AllPolled := by
  intro b hb
  obtain ⟨o, ho, hbo⟩ := List.mem_flatMap.1 hb
  rcases List.mem_append.1 ho with ho | ho
  · exact h b (List.mem_flatMap.2 ⟨o, (List.mem_filter.1 ho).1, hbo⟩)
  · rw [List.mem_singleton.1 ho] at hbo
    exact PerpPoll.collectAt_polled keyDate hobject hbo

theorem PerpLake.exec_merge_bronze (lake : PerpLake) (now : Int) (lookbackDays : Nat) :
    (lake.exec keyDate (.merge now lookbackDays)).bronze = lake.bronze := by
  simp only [PerpLake.exec]
  split <;> rfl

theorem PerpLake.AllPolled.exec {lake : PerpLake} (h : lake.AllPolled) (call : PerpCall) :
    (lake.exec keyDate call).AllPolled := by
  cases call with
  | poll p =>
    simp only [PerpLake.exec]
    split
    · exact h.put keyDate (by assumption)
    · exact h
  | merge now lookbackDays =>
    unfold PerpLake.AllPolled
    rw [lake.exec_merge_bronze]
    exact h

/-! ## The source of a merge -/

/-- **The instants are read back as they were printed.** -/
theorem silverPerpOf_polled {b : BronzePerpRow} {row : PerpContext} {s : SilverPerpRow} (hb : b.line = row.toJson)
    (h : silverPerpOf b = .ok s) : s.instrumentId = some row.instrumentId ∧
      s.snapshotTsUs = some row.snapshotTsUs ∧ s.knowledgeTsUs = some row.pollTsUs := by
  obtain ⟨line, ingestDate⟩ := b
  obtain rfl : line = row.toJson := hb
  obtain ⟨snapshot, hsnapshot, h⟩ := bind_ok h
  obtain ⟨knowledge, hknowledge, h⟩ := bind_ok h
  obtain ⟨next, -, h⟩ := bind_ok h
  have hcolumns : (BronzePerpRow.mk row.toJson ingestDate).column "snapshot_ts_us" = some (toString row.snapshotTsUs) ∧
      (BronzePerpRow.mk row.toJson ingestDate).column "poll_ts_us" = some (toString row.pollTsUs) := ⟨rfl, rfl⟩
  rw [hcolumns.1] at hsnapshot
  rw [hcolumns.2] at hknowledge
  cases h
  exact ⟨rfl, (castBigint_printed hsnapshot).2, (castBigint_printed hknowledge).2⟩

theorem onGrid_of_polled {b : BronzePerpRow} {row : PerpContext} {s : SilverPerpRow} (hb : Polled b row)
    (h : silverPerpOf b = .ok s) : s.OnGrid := by
  obtain ⟨hline, hpositive, hsnapshot⟩ := hb
  obtain ⟨-, hs, hk⟩ := silverPerpOf_polled hline h
  have hnonneg := Int.emod_nonneg row.pollTsUs (show gridUs ≠ 0 by decide)
  have hlt := Int.emod_lt_of_pos row.pollTsUs (show 0 < gridUs by decide)
  refine ⟨_, _, hs, hk, ?_, by omega, by omega⟩
  rw [hsnapshot]
  exact Int.dvd_self_sub_emod

/-- The partition of a row is its key, as text. -/
theorem perpPartition_eq {r : BronzePerpRow × SilverPerpRow} {row : PerpContext} (hb : r.1.line = row.toJson)
    (h : silverPerpOf r.1 = .ok r.2) : perpPartition r = (r.2.key.1, r.2.key.2.map toString) := by
  obtain ⟨hinstrument, hsnapshot, -⟩ := silverPerpOf_polled hb h
  obtain ⟨⟨line, ingestDate⟩, s⟩ := r
  obtain rfl : line = row.toJson := hb
  unfold SilverPerpRow.key
  rw [hinstrument, hsnapshot]
  rfl

def fullPerpKey (k : Option String × Option Int) : Bool := k.1.isSome && k.2.isSome

theorem perpMerge_keyed : perpMerge.Keyed SilverPerpRow.key fullPerpKey := by
  intro s t
  unfold MergeInto.hits perpMerge SilverPerpRow.key fullPerpKey
  rw [decide_eq_true_eq, and3_eq_true, equals_eq_true, equals_eq_true, Prod.mk.injEq, Bool.and_eq_true]
  constructor
  · rintro ⟨⟨hi, his⟩, hg, hgs⟩
    exact ⟨⟨hi.symm, hg.symm⟩, his, hgs⟩
  · rintro ⟨⟨hi, hg⟩, his, hgs⟩
    exact ⟨⟨hi.symm, his⟩, hg.symm, hgs⟩

variable {now : Int} {lookbackDays : Nat} {bronze : List BronzePerpRow} {source : List SilverPerpRow}

/-- The rows that the inner query numbers. -/
theorem perpSource_rows (h : perpSource now lookbackDays bronze = .ok source) :
    ∃ rows : List (BronzePerpRow × SilverPerpRow),
      (∀ r, r ∈ rows ↔ r.1 ∈ bronze ∧ perpInWindow now lookbackDays r.1 = true ∧ silverPerpOf r.1 = .ok r.2) ∧
      (∀ b ∈ bronze, perpInWindow now lookbackDays b = true → ∃ s, (b, s) ∈ rows) ∧
      source = (rowNumberOne perpPartition (fun r => r.2.knowledgeTsUs) rows).map Prod.snd := by
  obtain ⟨rows, hrows, h⟩ := bind_ok h
  cases h
  have hpair : ∀ (b : BronzePerpRow) (r : BronzePerpRow × SilverPerpRow),
      (silverPerpOf b).map (fun s => (b, s)) = .ok r ↔ r.1 = b ∧ silverPerpOf b = .ok r.2 := by
    intro b r
    cases silverPerpOf b with
    | error e => simp [Except.map]
    | ok s => simp [Except.map, Prod.ext_iff, eq_comm]
  refine ⟨rows, fun r => ?_, fun b hb hwindow => ?_, rfl⟩
  · rw [mem_mapM_iff hrows]
    constructor
    · rintro ⟨b, hb, hr⟩
      obtain ⟨rfl, hs⟩ := (hpair b r).1 hr
      obtain ⟨hb, hwindow⟩ := List.mem_filter.1 hb
      exact ⟨hb, hwindow, hs⟩
    · rintro ⟨hb, hwindow, hs⟩
      exact ⟨r.1, List.mem_filter.2 ⟨hb, hwindow⟩, (hpair r.1 r).2 ⟨rfl, hs⟩⟩
  · obtain ⟨r, hr, hbr⟩ := (mapM_ok hrows).1 b (List.mem_filter.2 ⟨hb, hwindow⟩)
    obtain ⟨rfl, -⟩ := (hpair b r).1 hbr
    exact ⟨r.2, hr⟩

/-- **A row of the source is the first reading of its grid point.** -/
theorem firstReading_of_source (hpolled : ∀ b ∈ bronze, ∃ row, Polled b row)
    (h : perpSource now lookbackDays bronze = .ok source) {s : SilverPerpRow} (hs : s ∈ source) :
    s.OnGrid ∧ FirstReading now lookbackDays bronze s := by
  obtain ⟨rows, hmem, htotal, rfl⟩ := perpSource_rows h
  obtain ⟨r, hr, rfl⟩ := List.mem_map.1 hs
  obtain ⟨hb, hwindow, hselect⟩ := (hmem r).1 (mem_of_mem_rowNumberOne _ _ hr)
  obtain ⟨row, hrow⟩ := hpolled r.1 hb
  obtain ⟨hinstrument, hsnapshot, hknowledge⟩ := silverPerpOf_polled hrow.1 hselect
  refine ⟨onGrid_of_polled hrow hselect, r.1, hb, row, hrow.1, hwindow, hselect, hinstrument, hsnapshot, hknowledge, ?_⟩
  intro b' hb' hwindow' row' hline' hsameInstrument hsameSnapshot
  obtain ⟨s', hs'⟩ := htotal b' hb' hwindow'
  obtain ⟨-, -, hselect'⟩ := (hmem (b', s')).1 hs'
  obtain ⟨hinstrument', hsnapshot', hknowledge'⟩ := silverPerpOf_polled hline' hselect'
  obtain ⟨k, hk, hpartition, hle⟩ := rowNumberOne_covers perpPartition (fun r => r.2.knowledgeTsUs) rows (b', s') hs'
  have hkey : s'.key = r.2.key := Prod.ext
    (by rw [SilverPerpRow.key, SilverPerpRow.key, hinstrument, hinstrument', hsameInstrument])
    (by rw [SilverPerpRow.key, SilverPerpRow.key, hsnapshot, hsnapshot', hsameSnapshot])
  have hsame : perpPartition (b', s') = perpPartition r := by
    rw [perpPartition_eq hline' hselect', perpPartition_eq hrow.1 hselect]
    exact congrArg (fun k : Option String × Option Int => (k.1, k.2.map toString)) hkey
  have hfirst : k = r := eq_of_mem_rowNumberOne _ _ hk hr (hpartition.trans hsame)
  have hnot : ltNullsLast s'.knowledgeTsUs r.2.knowledgeTsUs = false := hfirst ▸ hle
  rw [hknowledge, hknowledge', ltNullsLast, decide_eq_false_iff_not] at hnot
  omega

/-- **A source has one row of a grid point.** -/
theorem perpSource_nodup (hpolled : ∀ b ∈ bronze, ∃ row, Polled b row)
    (h : perpSource now lookbackDays bronze = .ok source) : (source.map SilverPerpRow.key).Nodup := by
  obtain ⟨rows, hmem, -, rfl⟩ := perpSource_rows h
  have hkeys : (rowNumberOne perpPartition (fun r => r.2.knowledgeTsUs) rows).map perpPartition =
      (((rowNumberOne perpPartition (fun r => r.2.knowledgeTsUs) rows).map Prod.snd).map SilverPerpRow.key).map
        (fun k => (k.1, k.2.map toString)) := by
    rw [List.map_map, List.map_map]
    refine List.map_congr_left (fun r hr => ?_)
    obtain ⟨hb, -, hselect⟩ := (hmem r).1 (mem_of_mem_rowNumberOne _ _ hr)
    obtain ⟨row, hrow⟩ := hpolled r.1 hb
    exact perpPartition_eq hrow.1 hselect
  have hnodup := rowNumberOne_nodup perpPartition (fun r => r.2.knowledgeTsUs) rows
  rw [hkeys] at hnodup
  exact List.Nodup.of_map _ hnodup

/-- **Every reading of the window has its grid point in the source.** -/
theorem perpSource_covers (hpolled : ∀ b ∈ bronze, ∃ row, Polled b row)
    (h : perpSource now lookbackDays bronze = .ok source) {b : BronzePerpRow} (hb : b ∈ bronze)
    (hwindow : perpInWindow now lookbackDays b = true) {s : SilverPerpRow} (hs : silverPerpOf b = .ok s) :
    ∃ t ∈ source, t.key = s.key := by
  obtain ⟨rows, hmem, -, rfl⟩ := perpSource_rows h
  obtain ⟨k, hk, hpartition, -⟩ := rowNumberOne_covers perpPartition (fun r => r.2.knowledgeTsUs) rows (b, s)
    ((hmem (b, s)).2 ⟨hb, hwindow, hs⟩)
  obtain ⟨hkb, -, hselect⟩ := (hmem k).1 (mem_of_mem_rowNumberOne _ _ hk)
  obtain ⟨row, hrow⟩ := hpolled b hb
  obtain ⟨krow, hkrow⟩ := hpolled k.1 hkb
  refine ⟨k.2, List.mem_map_of_mem hk, ?_⟩
  rw [perpPartition_eq hkrow.1 hselect, perpPartition_eq (r := (b, s)) hrow.1 hs] at hpartition
  obtain ⟨-, hksnapshot, -⟩ := silverPerpOf_polled hkrow.1 hselect
  obtain ⟨-, hsnapshot, -⟩ := silverPerpOf_polled hrow.1 hs
  have hinstrument := congrArg Prod.fst hpartition
  have htext := congrArg Prod.snd hpartition
  simp only [SilverPerpRow.key, hksnapshot, hsnapshot, Option.map_some, Option.some.injEq] at htext
  exact Prod.ext hinstrument (by rw [SilverPerpRow.key, SilverPerpRow.key, hksnapshot, hsnapshot, toString_injective htext])

/-- **A merge whose casts go through adds what is new of its source.** -/
theorem mergeSilverPerpContext_of_source (hpolled : ∀ b ∈ bronze, ∃ row, Polled b row)
    (h : perpSource now lookbackDays bronze = .ok source) (silver : List SilverPerpRow) :
    mergeSilverPerpContext now lookbackDays bronze silver = .ok (silver ++ perpMerge.inserted source silver) := by
  have hrun := perpMerge_keyed.run_eq_of_unique (uniqueKeys_of_nodup (perpSource_nodup hpolled h)) silver
  unfold mergeSilverPerpContext
  rw [h]
  show perpMerge.run source silver = _
  rw [hrun, MergeInto.merged_insert (fun _ _ => rfl)]

theorem FirstReading.full {s : SilverPerpRow} (h : FirstReading now lookbackDays bronze s) :
    fullPerpKey s.key = true := by
  obtain ⟨b, -, row, -, -, -, hinstrument, hsnapshot, -⟩ := h
  unfold fullPerpKey SilverPerpRow.key
  rw [hinstrument, hsnapshot]
  rfl

/-! ## One call -/

/-- **What a merge does to the lake**: nothing, where a cast fails, or the rows of its source that are new. -/
theorem PerpLake.exec_merge_cases {lake : PerpLake} (h : lake.AllPolled) (now : Int) (lookbackDays : Nat) :
    (lake.exec keyDate (.merge now lookbackDays) = lake ∧
      (mergeSilverPerpContext now lookbackDays lake.bronze lake.silver).isOk = false) ∨
    ∃ source, perpSource now lookbackDays lake.bronze = .ok source ∧
      lake.exec keyDate (.merge now lookbackDays) =
        { lake with silver := lake.silver ++ perpMerge.inserted source lake.silver } := by
  cases hsource : perpSource now lookbackDays lake.bronze with
  | error e =>
    have hmerge : mergeSilverPerpContext now lookbackDays lake.bronze lake.silver = .error e := by
      unfold mergeSilverPerpContext
      rw [hsource]
      rfl
    refine Or.inl ⟨?_, by rw [hmerge]; rfl⟩
    simp only [PerpLake.exec, hmerge]
  | ok source =>
    refine Or.inr ⟨source, rfl, ?_⟩
    simp only [PerpLake.exec, mergeSilverPerpContext_of_source h hsource]

theorem PerpLake.exec_poll_silver (lake : PerpLake) (p : PerpPoll) :
    (lake.exec keyDate (.poll p)).silver = lake.silver := by
  simp only [PerpLake.exec]
  split <;> rfl

/-- **No call changes a row, or takes one away.** -/
theorem PerpLake.silver_prefix {lake : PerpLake} (h : lake.AllPolled) (call : PerpCall) :
    lake.silver <+: (lake.exec keyDate call).silver := by
  cases call with
  | poll p => exact ⟨[], by rw [lake.exec_poll_silver, List.append_nil]⟩
  | merge now lookbackDays =>
    rcases lake.exec_merge_cases keyDate h now lookbackDays with ⟨hsame, -⟩ | ⟨source, -, hexec⟩
    · exact ⟨[], by rw [hsame, List.append_nil]⟩
    · rw [hexec]
      exact List.prefix_append _ _

/-- A row that a call adds is a first reading of its window. -/
theorem PerpLake.mem_exec_silver {lake : PerpLake} (h : lake.AllPolled) {call : PerpCall} {s : SilverPerpRow}
    (hs : s ∈ (lake.exec keyDate call).silver) : s ∈ lake.silver ∨ Inserts lake call s ∧ s.OnGrid := by
  by_cases hold : s ∈ lake.silver
  · exact Or.inl hold
  · refine Or.inr ?_
    cases call with
    | poll p =>
      rw [lake.exec_poll_silver] at hs
      exact absurd hs hold
    | merge now lookbackDays =>
      rcases lake.exec_merge_cases keyDate h now lookbackDays with ⟨hsame, -⟩ | ⟨source, hsource, hexec⟩
      · rw [hsame] at hs
        exact absurd hs hold
      · rw [hexec] at hs
        rcases List.mem_append.1 hs with hs | hs
        · exact absurd hs hold
        · obtain ⟨hgrid, hfirst⟩ := firstReading_of_source h hsource (MergeInto.mem_inserted.1 hs).1
          exact ⟨⟨now, lookbackDays, rfl, hold, hfirst⟩, hgrid⟩

/-- **A call leaves one row of a grid point.** -/
theorem PerpLake.nodup_exec {lake : PerpLake} (h : lake.AllPolled) (hnodup : (lake.silver.map SilverPerpRow.key).Nodup)
    (call : PerpCall) : ((lake.exec keyDate call).silver.map SilverPerpRow.key).Nodup := by
  cases call with
  | poll p =>
    rw [lake.exec_poll_silver]
    exact hnodup
  | merge now lookbackDays =>
    rcases lake.exec_merge_cases keyDate h now lookbackDays with ⟨hsame, -⟩ | ⟨source, hsource, hexec⟩
    · rw [hsame]
      exact hnodup
    · rw [hexec]
      show (List.map _ (lake.silver ++ _)).Nodup
      rw [List.map_append]
      refine List.nodup_append.2 ⟨hnodup, ?_, ?_⟩
      · exact (List.filter_sublist.map _).nodup (perpSource_nodup h hsource)
      · intro k hk k' hk' hsame
        obtain ⟨t, ht, rfl⟩ := List.mem_map.1 hk
        obtain ⟨s, hs, rfl⟩ := List.mem_map.1 hk'
        obtain ⟨hs, hnew⟩ := perpMerge_keyed.inserted_iff.1 hs
        have hnone := hnew (firstReading_of_source h hsource hs).2.full
        rw [rowOf_isSome.2 ⟨t, ht, hsame⟩] at hnone
        cases hnone

theorem perpInWindow_mono {now' : Int} {lookbackDays' : Nat}
    (hle : currentDate now - (lookbackDays : Nat) ≤ currentDate now' - (lookbackDays' : Nat)) {b : BronzePerpRow}
    (h : perpInWindow now' lookbackDays' b = true) : perpInWindow now lookbackDays b = true := by
  unfold perpInWindow at h ⊢
  rw [Bool.and_eq_true, Bool.and_eq_true, decide_eq_true_eq] at h ⊢
  exact ⟨⟨by omega, h.1.2⟩, h.2⟩

/-- **A merge after one that went through finds nothing**, over a window that is no wider. -/
theorem PerpLake.exec_merge_narrower {lake : PerpLake} (h : lake.AllPolled) {now' : Int} {lookbackDays' : Nat}
    (hsource : perpSource now lookbackDays lake.bronze = .ok source)
    (hle : currentDate now - (lookbackDays : Nat) ≤ currentDate now' - (lookbackDays' : Nat)) :
    (lake.exec keyDate (.merge now lookbackDays)).exec keyDate (.merge now' lookbackDays') =
      lake.exec keyDate (.merge now lookbackDays) := by
  have hafter : lake.exec keyDate (.merge now lookbackDays) =
      { lake with silver := lake.silver ++ perpMerge.inserted source lake.silver } := by
    simp only [PerpLake.exec, mergeSilverPerpContext_of_source h hsource]
  have hpolled := h.exec keyDate (.merge now lookbackDays)
  rcases PerpLake.exec_merge_cases keyDate hpolled now' lookbackDays' with ⟨hsame, -⟩ | ⟨source', hsource', hexec⟩
  · exact hsame
  · rw [hexec]
    rw [lake.exec_merge_bronze] at hsource'
    have hnone : perpMerge.inserted source' (lake.exec keyDate (.merge now lookbackDays)).silver = [] := by
      refine perpMerge_keyed.inserted_eq_nil (fun s' hs' => ?_)
      have hfirst := (firstReading_of_source h hsource' hs').2
      refine ⟨hfirst.full, ?_⟩
      obtain ⟨b, hb, row, -, hwindow, hselect, -⟩ := hfirst
      obtain ⟨s, hs, hkey⟩ := perpSource_covers h hsource hb (perpInWindow_mono hle hwindow) hselect
      have hcovers : ∃ t ∈ lake.silver ++ perpMerge.inserted source lake.silver, t.key = s.key :=
        perpMerge_keyed.covers_inserted hs
      obtain ⟨t, ht, htkey⟩ := hcovers
      rw [hafter]
      exact ⟨t, ht, htkey.trans hkey⟩
    rw [hnone, List.append_nil]

theorem PerpLake.exec_merge_again {lake : PerpLake} (h : lake.AllPolled) (now : Int) (lookbackDays : Nat) :
    (lake.exec keyDate (.merge now lookbackDays)).exec keyDate (.merge now lookbackDays) =
      lake.exec keyDate (.merge now lookbackDays) := by
  rcases lake.exec_merge_cases keyDate h now lookbackDays with ⟨hsame, -⟩ | ⟨source, hsource, -⟩
  · rw [hsame, hsame]
  · exact PerpLake.exec_merge_narrower keyDate h hsource (Int.le_refl _)

/-! ## Any calls -/

/-- What every call keeps. -/
structure PerpLake.Kept (lake : PerpLake) : Prop where
  polled : lake.AllPolled
  onGrid : ∀ s ∈ lake.silver, s.OnGrid
  onePerGridPoint : (lake.silver.map SilverPerpRow.key).Nodup

theorem PerpLake.Kept.empty : PerpLake.empty.Kept where
  polled b hb := by cases hb
  onGrid s hs := by cases hs
  onePerGridPoint := List.nodup_nil

theorem PerpLake.Kept.exec {lake : PerpLake} (h : lake.Kept) (call : PerpCall) : (lake.exec keyDate call).Kept := by
  refine ⟨h.polled.exec keyDate call, fun s hs => ?_, lake.nodup_exec keyDate h.polled h.onePerGridPoint call⟩
  rcases lake.mem_exec_silver keyDate h.polled hs with hs | ⟨-, hs⟩
  · exact h.onGrid s hs
  · exact hs

theorem kept_run (calls : List PerpCall) : (calls.foldl (PerpLake.exec keyDate) PerpLake.empty).Kept :=
  run_invariant (I := PerpLake.Kept) (fun _ call h => h.exec keyDate call) calls PerpLake.Kept.empty

/-- **A row of Silver was put in by a merge of the run.** -/
theorem inserted_run (calls : List PerpCall) {s : SilverPerpRow}
    (hs : s ∈ (calls.foldl (PerpLake.exec keyDate) PerpLake.empty).silver) :
    SomeStep (PerpLake.exec keyDate) (fun before call => Inserts before call s) PerpLake.empty calls := by
  induction calls using List.reverseRecOn with
  | nil => cases hs
  | append_singleton calls call ih =>
    rw [List.foldl_append] at hs
    rcases PerpLake.mem_exec_silver keyDate (kept_run keyDate calls).polled hs with hold | ⟨hnew, -⟩
    · obtain ⟨pre, e, post, hsplit, hinserts⟩ := ih hold
      exact ⟨pre, e, post ++ [call], by rw [hsplit, List.append_assoc, List.cons_append], hinserts⟩
    · exact ⟨calls, call, [], rfl, hnew⟩

/-- **Silver is point-in-time after any polls and merges**, in any order: each row is one reading, the first of its
instrument's grid point that the window of its merge held, known from its own poll on and inside the five minutes; no
grid point has two, no row changes, and a merge run again adds nothing. -/
theorem perpPointInTime (calls : List PerpCall) :
    (calls.foldl (PerpLake.exec keyDate) PerpLake.empty).PointInTime keyDate calls := by
  have h := kept_run keyDate calls
  refine ⟨h.onGrid, fun s hs => inserted_run keyDate calls hs, h.onePerGridPoint,
    PerpLake.silver_prefix keyDate h.polled, PerpLake.exec_merge_again keyDate h.polled, ?_⟩
  intro now lookbackDays now' lookbackDays' hok hle
  rcases PerpLake.exec_merge_cases keyDate h.polled now lookbackDays with ⟨-, hfails⟩ | ⟨source, hsource, -⟩
  · rw [hok] at hfails
    cases hfails
  · exact PerpLake.exec_merge_narrower keyDate h.polled hsource hle

end Awsnative
