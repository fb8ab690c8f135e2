import RealtimeFinance.Sql.Upsert
import RealtimeFinance.Awsnative.GoldBars
/-!
# GoldRebuild — what each writer of `gold_bars_1m` does to a bar

A partition holds a bar's rows all or none (`inPartition_eq`), so the stream's writer replaces the bars of the dirty
partitions by the aggregates of all their Silver rows and keeps the others (`mergeGoldBars1m_rebuilds`).  The archive's
writer keeps every derived bar and writes only klines (`mergeGoldFromArchive_fills`).
-/
namespace Awsnative

open Sql

theorem goldMerge_keyed : goldMerge.Keyed GoldRow.key fullBarKey := by
  intro s t
  unfold MergeInto.hits goldMerge goldOn GoldRow.key fullBarKey
  rw [decide_eq_true_eq, and3_eq_true, equals_eq_true, equals_eq_true, Prod.mk.injEq, Bool.and_eq_true]
  constructor
  · rintro ⟨⟨hi, his⟩, hw, hws⟩
    exact ⟨⟨hi.symm, hw.symm⟩, his, hws⟩
  · rintro ⟨⟨hi, hw⟩, his, hws⟩
    exact ⟨⟨hi.symm, his⟩, hw.symm, hws⟩

theorem goldArchiveMerge_keyed : goldArchiveMerge.Keyed GoldRow.key fullBarKey := goldMerge_keyed

/-! ## A bar's partition -/

def rebuilt (dirty : List Partition) (k : BarKey) : Bool :=
  dirty.any (fun d => decide
    (and3 (equals k.1 d.1) (equals (k.2.map (fun w => microsDate (w - microsPerMinute))) (some d.2)) = some true))

theorem inPartition_eq (dirty : List Partition) (s : SilverRow) :
    dirty.any (inPartition s) = rebuilt dirty s.barKey := by
  have hday : s.eventTs.map microsDate = s.barKey.2.map (fun w => microsDate (w - microsPerMinute)) := by
    unfold SilverRow.barKey
    rw [Option.map_map]
    congr 1
    funext t
    show microsDate t = microsDate (truncMinute t + microsPerMinute - microsPerMinute)
    rw [Int.add_sub_cancel, microsDate_truncMinute]
  unfold rebuilt
  congr 1
  funext d
  unfold inPartition
  rw [hday]
  rfl

theorem rebuilt_full {dirty : List Partition} {k : BarKey} (h : rebuilt dirty k = true) : fullBarKey k = true := by
  obtain ⟨d, -, hd⟩ := List.any_eq_true.1 h
  rw [decide_eq_true_eq, and3_eq_true, equals_eq_true, equals_eq_true, Option.isSome_map] at hd
  unfold fullBarKey
  rw [hd.1.2, hd.2.2]
  rfl

/-- **A rebuilt bar reads all its Silver rows.** -/
theorem groupRows_joinDirty {dirty : List Partition} {k : BarKey} (h : rebuilt dirty k = true)
    (silver : List SilverRow) :
    groupRows SilverRow.barKey k (joinDirty dirty silver) = groupRows SilverRow.barKey k silver := by
  refine groupRows_filter (fun s _ hk => ?_)
  rw [inPartition_eq, hk]
  exact h

theorem mem_joinDirty {dirty : List Partition} {silver : List SilverRow} {s : SilverRow} :
    s ∈ joinDirty dirty silver ↔ s ∈ silver ∧ rebuilt dirty s.barKey = true := by
  unfold joinDirty
  rw [List.mem_filter, inPartition_eq]

/-! ## The bar of a group -/

/-- **`b` is the bar of the Silver rows of `k`**, scanned in some order. -/
def IsBar (silver : List SilverRow) (k : BarKey) (b : Bar) : Prop :=
  ∃ scan : List SilverRow, scan.Perm (groupRows SilverRow.barKey k silver) ∧ barOf scan = .ok b

theorem barOf_tradeCount {rows : List SilverRow} {b : Bar} (h : barOf rows = .ok b) : b.tradeCount = some rows.length := by
  obtain ⟨first, -, h⟩ := bind_ok h
  obtain ⟨last, -, h⟩ := bind_ok h
  obtain ⟨volume, -, h⟩ := bind_ok h
  obtain ⟨products, -, h⟩ := bind_ok h
  obtain ⟨notional, -, h⟩ := bind_ok h
  obtain ⟨buyVol, -, h⟩ := bind_ok h
  obtain ⟨sellVol, -, h⟩ := bind_ok h
  cases h
  rfl

theorem IsBar.tradeCount {silver : List SilverRow} {k : BarKey} {b : Bar} (h : IsBar silver k b) :
    b.tradeCount = some (groupRows SilverRow.barKey k silver).length := by
  obtain ⟨scan, hperm, hbar⟩ := h
  rw [barOf_tradeCount hbar, hperm.length_eq]

theorem IsBar.congr {silver silver' : List SilverRow} {k : BarKey} {b : Bar} (h : IsBar silver k b)
    (hg : (groupRows SilverRow.barKey k silver).Perm (groupRows SilverRow.barKey k silver')) : IsBar silver' k b := by
  obtain ⟨scan, hperm, hbar⟩ := h
  exact ⟨scan, hperm.trans hg, hbar⟩

theorem goldOf_ok {now : Int} {silver : List SilverRow} {k : BarKey} {g : GoldRow} (h : goldOf now silver k = .ok g) :
    g.key = k ∧ g.sourceTier = .derivedFromTrades ∧ barOf (groupRows SilverRow.barKey k silver) = .ok g.bar := by
  obtain ⟨bar, hbar, h⟩ := bind_ok h
  cases h
  exact ⟨rfl, rfl, hbar⟩

/-- The rows `merge_gold_bars_1m.sql` merges. -/
def barsSource (now : Int) (dirty : List Partition) (silver : List SilverRow) : Except Error (List GoldRow) :=
  (groupKeys SilverRow.barKey (joinDirty dirty silver)).mapM (goldOf now (joinDirty dirty silver))

/-- A kline row, with what it is numbered by: `(instrument_id, open_time_us)` as staged, and the open time. -/
abbrev NumberedKline := (Option String × Option String) × Option Int × GoldRow

/-- The rows `merge_gold_from_archive.sql` merges. -/
def klineSource (now : Int) (staging : List StagedKline) : Except Error (List GoldRow) := do
  let rows ← staging.mapM (fun k => do return ((k.instrumentId, k.openTimeUs), ← klineRow now k))
  return (rowNumberOne Prod.fst (fun r => r.2.1) rows).map (fun r => r.2.2)

theorem mergeGoldBars1m_eq (now : Int) (lookbackDays : Nat) (bronze : List BronzeRow) (silver : List SilverRow)
    (gold : List GoldRow) : mergeGoldBars1m now lookbackDays bronze silver gold =
      barsSource now (dirtyFromBronze now lookbackDays bronze) silver >>= (fun source => goldMerge.run source gold) := rfl

theorem mergeGoldFromArchive_eq (now : Int) (staging : List StagedKline) (gold : List GoldRow) :
    mergeGoldFromArchive now staging gold =
      klineSource now staging >>= (fun source => goldArchiveMerge.run source gold) := by
  unfold mergeGoldFromArchive klineSource
  rw [bind_assoc]
  rfl

theorem goldMerge_keeps_key (s t : GoldRow) : (goldMerge.whenMatched s t).key = t.key := rfl

theorem goldArchiveMerge_keeps_key (s t : GoldRow) : (goldArchiveMerge.whenMatched s t).key = t.key := by
  unfold goldArchiveMerge
  dsimp only
  split <;> rfl

/-! ## The stream's writer -/

theorem goldOf_of_bar (now : Int) {silver : List SilverRow} {k : BarKey} {bar : Bar}
    (h : barOf (groupRows SilverRow.barKey k silver) = .ok bar) :
    goldOf now silver k = .ok ⟨k.1, k.2, bar, .derivedFromTrades, now⟩ := by
  unfold goldOf
  rw [h]
  rfl

theorem goldOf_joinDirty (now : Int) {dirty : List Partition} {k : BarKey} (h : rebuilt dirty k = true)
    (silver : List SilverRow) : goldOf now (joinDirty dirty silver) k = goldOf now silver k := by
  unfold goldOf
  rw [groupRows_joinDirty h]

/-- **Every bar of the dirty partitions is rebuilt.** -/
theorem barsSource_covers {now : Int} {dirty : List Partition} {silver : List SilverRow} {source : List GoldRow}
    (h : barsSource now dirty silver = .ok source) {s : SilverRow} (hs : s ∈ silver)
    (hdirty : rebuilt dirty s.barKey = true) : ∃ g ∈ source, goldOf now silver s.barKey = .ok g := by
  obtain ⟨g, hg, hgk⟩ := (mapM_ok h).1 s.barKey (mem_groupKeys.2 ⟨s, mem_joinDirty.2 ⟨hs, hdirty⟩, rfl⟩)
  rw [goldOf_joinDirty now hdirty] at hgk
  exact ⟨g, hg, hgk⟩

/-- **The rebuilt bars are those of the dirty partitions**, each from all of its Silver rows. -/
theorem mem_barsSource {now : Int} {dirty : List Partition} {silver : List SilverRow} {source : List GoldRow}
    (h : barsSource now dirty silver = .ok source) {g : GoldRow} :
    g ∈ source ↔ ∃ s ∈ silver, rebuilt dirty s.barKey = true ∧ goldOf now silver s.barKey = .ok g := by
  rw [mem_mapM_iff h]
  constructor
  · rintro ⟨k, hk, hgk⟩
    obtain ⟨s, hs, rfl⟩ := mem_groupKeys.1 hk
    obtain ⟨hs, hdirty⟩ := mem_joinDirty.1 hs
    rw [goldOf_joinDirty now hdirty] at hgk
    exact ⟨s, hs, hdirty, hgk⟩
  · rintro ⟨s, hs, hdirty, hgk⟩
    rw [← goldOf_joinDirty now hdirty] at hgk
    exact ⟨s.barKey, mem_groupKeys.2 ⟨s, mem_joinDirty.2 ⟨hs, hdirty⟩, rfl⟩, hgk⟩

/-- **A rebuild of the dirty partitions**: their bars with Silver rows are the derived bars of those, and every other
gold row stays. -/
structure Rebuilds (dirty : List Partition) (silver : List SilverRow) (gold gold' : List GoldRow) : Prop where
  fresh : ∀ g ∈ gold', rebuilt dirty g.key = true → (∃ s ∈ silver, s.barKey = g.key) →
    g.sourceTier = .derivedFromTrades ∧ IsBar silver g.key g.bar
  covers : ∀ s ∈ silver, rebuilt dirty s.barKey = true → ∃ g ∈ gold', g.key = s.barKey
  keeps : ∀ g, ¬ (rebuilt dirty g.key = true ∧ ∃ s ∈ silver, s.barKey = g.key) → (g ∈ gold' ↔ g ∈ gold)

theorem mergeGoldBars1m_rebuilds {now : Int} {lookbackDays : Nat} {bronze : List BronzeRow} {silver : List SilverRow}
    {gold gold' : List GoldRow} (h : mergeGoldBars1m now lookbackDays bronze silver gold = .ok gold') :
    Rebuilds (dirtyFromBronze now lookbackDays bronze) silver gold gold' := by
  rw [mergeGoldBars1m_eq] at h
  obtain ⟨source, hsource, hrun⟩ := bind_ok h
  generalize dirtyFromBronze now lookbackDays bronze = dirty at hsource ⊢
  have hderived : ∀ g ∈ source, (rebuilt dirty g.key = true ∧ ∃ s ∈ silver, s.barKey = g.key) ∧
      g.sourceTier = .derivedFromTrades ∧ IsBar silver g.key g.bar := by
    intro g hg
    obtain ⟨s, hs, hdirty, hgk⟩ := (mem_barsSource hsource).1 hg
    obtain ⟨hkey, htier, hbar⟩ := goldOf_ok hgk
    rw [hkey]
    exact ⟨⟨hdirty, s, hs, rfl⟩, htier, _, List.Perm.refl _, hbar⟩
  have hcovered : ∀ s ∈ silver, rebuilt dirty s.barKey = true → ∃ g ∈ source, g.key = s.barKey := by
    intro s hs hdirty
    obtain ⟨g, hg, hgk⟩ := barsSource_covers hsource hs hdirty
    exact ⟨g, hg, (goldOf_ok hgk).1⟩
  have hupdated : ∀ g, (goldMerge.updated source g).key = g.key := MergeInto.updated_key goldMerge_keeps_key source
  have hmiss : ∀ g : GoldRow, ¬ (rebuilt dirty g.key = true ∧ ∃ s ∈ silver, s.barKey = g.key) →
      goldMerge.updated source g = g := by
    intro g hn
    rcases goldMerge.updated_cases source g with ⟨r, hr, hhit, -⟩ | ⟨-, he⟩
    · rw [← ((goldMerge_keyed r g).1 hhit).1] at hn
      exact absurd (hderived r hr).1 hn
    · exact he
  rw [MergeInto.run_ok hrun]
  refine ⟨?_, ?_, ?_⟩
  · rintro g hg hdirty ⟨s, hs, hsk⟩
    rcases List.mem_append.1 hg with hg | hg
    · obtain ⟨t, -, rfl⟩ := List.mem_map.1 hg
      rw [hupdated] at hdirty hsk ⊢
      obtain ⟨r, hr, hrk⟩ := hcovered s hs (by rw [hsk]; exact hdirty)
      have hhit : goldMerge.hits r t = true := (goldMerge_keyed r t).2 ⟨hrk.trans hsk, rebuilt_full hdirty⟩
      rcases goldMerge.updated_cases source t with ⟨r', hr', hhit', he⟩ | ⟨hno, -⟩
      · rw [he, ← ((goldMerge_keyed r' t).1 hhit').1]
        exact (hderived r' hr').2
      · rw [hno r hr] at hhit
        cases hhit
    · exact (hderived g (MergeInto.mem_inserted.1 hg).1).2
  · intro s hs hdirty
    obtain ⟨r, hr, hrk⟩ := hcovered s hs hdirty
    obtain ⟨g, hg, hgk⟩ : ∃ g ∈ goldMerge.merged source gold, g.key = r.key :=
      goldMerge_keyed.covers_merged goldMerge_keeps_key hr
    exact ⟨g, hg, hgk.trans hrk⟩
  · intro g hn
    constructor
    · intro hg
      rcases List.mem_append.1 hg with hg | hg
      · obtain ⟨t, ht, rfl⟩ := List.mem_map.1 hg
        rw [hupdated] at hn
        rw [hmiss t hn]
        exact ht
      · exact absurd (hderived g (MergeInto.mem_inserted.1 hg).1).1 hn
    · intro hg
      exact List.mem_append_left _ (List.mem_map.2 ⟨g, hg, hmiss g hn⟩)

/-! ## The archive's writer -/

theorem klineRow_ok {now : Int} {k : StagedKline} {openTime : Option Int} {g : GoldRow}
    (h : klineRow now k = .ok (openTime, g)) :
    castBigint k.openTimeUs = .ok openTime ∧ g.instrumentId = k.instrumentId ∧
      g.windowEndTs = openTime.map klineWindowEnd ∧ g.sourceTier = .archiveKline := by
  obtain ⟨openTime', hopen, h⟩ := bind_ok h
  obtain ⟨opening, -, h⟩ := bind_ok h
  obtain ⟨high, -, h⟩ := bind_ok h
  obtain ⟨low, -, h⟩ := bind_ok h
  obtain ⟨close, -, h⟩ := bind_ok h
  obtain ⟨volume, -, h⟩ := bind_ok h
  obtain ⟨notional, -, h⟩ := bind_ok h
  obtain ⟨buyVol, -, h⟩ := bind_ok h
  obtain ⟨sellVol, -, h⟩ := bind_ok h
  obtain ⟨tradeCount, -, h⟩ := bind_ok h
  cases h
  exact ⟨hopen, rfl, rfl, rfl⟩

/-- **The rows of the kline source**: each is a kline, of a staged kline that comes first of its open time. -/
theorem klineSource_ok {now : Int} {staging : List StagedKline} {source : List GoldRow}
    (h : klineSource now staging = .ok source) :
    ∃ rows : List NumberedKline,
      source = (rowNumberOne Prod.fst (fun r => r.2.1) rows).map (fun r => r.2.2) ∧
      (∀ r ∈ rows, ∃ k ∈ staging, r.1 = (k.instrumentId, k.openTimeUs) ∧ klineRow now k = .ok r.2) ∧
      ∀ k ∈ staging, ∃ r ∈ rows, r.1 = (k.instrumentId, k.openTimeUs) ∧ klineRow now k = .ok r.2 := by
  obtain ⟨rows, hrows, hsource⟩ := bind_ok h
  refine ⟨rows, (Except.ok.inj hsource).symm, fun r hr => ?_, fun k hk => ?_⟩
  · obtain ⟨k, hk, hkr⟩ := (mapM_ok hrows).2 r hr
    obtain ⟨row, hrow, hkr⟩ := bind_ok hkr
    cases hkr
    exact ⟨k, hk, rfl, hrow⟩
  · obtain ⟨r, hr, hkr⟩ := (mapM_ok hrows).1 k hk
    obtain ⟨row, hrow, hkr⟩ := bind_ok hkr
    cases hkr
    exact ⟨_, hr, rfl, hrow⟩

theorem klineSource_tier {now : Int} {staging : List StagedKline} {source : List GoldRow}
    (h : klineSource now staging = .ok source) : ∀ g ∈ source, g.sourceTier = .archiveKline := by
  obtain ⟨rows, rfl, hrows, -⟩ := klineSource_ok h
  intro g hg
  obtain ⟨r, hr, rfl⟩ := List.mem_map.1 hg
  obtain ⟨k, -, -, hk⟩ := hrows r (mem_of_mem_rowNumberOne _ _ hr)
  exact (klineRow_ok hk).2.2.2

/-- **A fill**: derived bars are as before, and a new kline bar stands where there was a kline bar or none. -/
structure Fills (gold gold' : List GoldRow) : Prop where
  derived : ∀ g, g.sourceTier = .derivedFromTrades → (g ∈ gold' ↔ g ∈ gold)
  klines : ∀ g ∈ gold', g ∈ gold ∨ (∃ t ∈ gold, t.key = g.key ∧ t.sourceTier = .archiveKline) ∨
    ∀ t ∈ gold, t.key = g.key → fullBarKey g.key = false

theorem mergeGoldFromArchive_fills {now : Int} {staging : List StagedKline} {gold gold' : List GoldRow}
    (h : mergeGoldFromArchive now staging gold = .ok gold') : Fills gold gold' := by
  rw [mergeGoldFromArchive_eq] at h
  obtain ⟨source, hsource, hrun⟩ := bind_ok h
  have hkline := klineSource_tier hsource
  rw [MergeInto.run_ok hrun]
  have hcases : ∀ t : GoldRow, goldArchiveMerge.updated source t = t ∨
      t.sourceTier = .archiveKline ∧ (goldArchiveMerge.updated source t).key = t.key ∧
        (goldArchiveMerge.updated source t).sourceTier = .archiveKline := by
    intro t
    rcases goldArchiveMerge.updated_cases source t with ⟨s, hs, -, he⟩ | ⟨-, he⟩
    · rw [he]
      cases htier : t.sourceTier with
      | derivedFromTrades => exact Or.inl (if_pos htier)
      | archiveKline =>
        have hset : goldArchiveMerge.whenMatched s t = setBar s t := if_neg (by rw [htier]; decide)
        rw [hset]
        exact Or.inr ⟨rfl, rfl, hkline s hs⟩
    · exact Or.inl he
  refine ⟨fun g hg => ⟨fun hmem => ?_, fun hmem => ?_⟩, fun g hmem => ?_⟩
  · rcases List.mem_append.1 hmem with hmem | hmem
    · obtain ⟨t, ht, rfl⟩ := List.mem_map.1 hmem
      rcases hcases t with he | ⟨-, -, htier⟩
      · rw [he]
        exact ht
      · rw [hg] at htier
        cases htier
    · rw [hkline g (MergeInto.mem_inserted.1 hmem).1] at hg
      cases hg
  · refine List.mem_append_left _ (List.mem_map.2 ⟨g, hmem, ?_⟩)
    rcases hcases g with he | ⟨htier, -⟩
    · exact he
    · rw [hg] at htier
      cases htier
  · rcases List.mem_append.1 hmem with hmem | hmem
    · obtain ⟨t, ht, rfl⟩ := List.mem_map.1 hmem
      rcases hcases t with he | ⟨htier, hkey, -⟩
      · rw [he]
        exact Or.inl ht
      · exact Or.inr (Or.inl ⟨t, ht, hkey.symm, htier⟩)
    · refine Or.inr (Or.inr (fun t ht hk => ?_))
      have hno := (MergeInto.mem_inserted.1 hmem).2 t ht
      rw [← Bool.not_eq_true, goldArchiveMerge_keyed, hk] at hno
      simpa using hno

end Awsnative
