import RealtimeFinance.Awsnative.GoldFreshness
/-!
# GoldFidelity — a derived bar stays derived, and the two Gold writers commute

Gold rows are updated in place, so a row is its position in the table.  Each writer is a merge of a source it has
computed without reading Gold: the stream's overwrites, the archive's leaves alone what the stream's has written
(`goldMerge_overrides`), and in either order the stream's row of a bar wins.  `updated_ts` alone tells when a writer ran,
and `timeless` forgets it.
-/
namespace Awsnative

open Sql Runs

variable (hexMd5 : String → String)

/-! ## The sources -/

/-- **The rebuilt bars are derived, one a key.** -/
theorem barsSource_ok {now : Int} {dirty : List Partition} {silver : List SilverRow} {source : List GoldRow}
    (h : barsSource now dirty silver = .ok source) :
    (∀ g ∈ source, g.sourceTier = .derivedFromTrades) ∧ UniqueKeys GoldRow.key fullBarKey source := by
  have hkeys : source.map GoldRow.key = (groupKeys SilverRow.barKey (joinDirty dirty silver)).map id :=
    mapM_map_eq (fun k g hg => (goldOf_ok hg).1) h
  refine ⟨fun g hg => ?_, uniqueKeys_of_nodup ?_⟩
  · obtain ⟨s, -, -, hgk⟩ := (mem_barsSource h).1 hg
    exact (goldOf_ok hgk).2.1
  · rw [hkeys, List.map_id]
    exact List.nodup_dedup _

/-- The bar a staged kline is of; none where its open time does not cast. -/
def StagedKline.barKey (k : StagedKline) : BarKey :=
  (k.instrumentId, match castBigint k.openTimeUs with
    | .ok openTime => openTime.map klineWindowEnd
    | .error _     => none)

/-- **At most one kline of each bar**, copies of one row apart. -/
def OneKlinePerBar (staging : List StagedKline) : Prop :=
  ∀ k ∈ staging, ∀ k' ∈ staging, fullBarKey k.barKey = true → k.barKey = k'.barKey → k.openTimeUs = k'.openTimeUs

theorem klineRow_key {now : Int} {k : StagedKline} {r : Option Int × GoldRow} (h : klineRow now k = .ok r) :
    r.2.key = k.barKey := by
  obtain ⟨openTime, g⟩ := r
  obtain ⟨hopen, hi, hw, -⟩ := klineRow_ok h
  unfold GoldRow.key StagedKline.barKey
  rw [hi, hw, hopen]

/-- **One kline of each bar is one row of each key**: the source is numbered by open time, and matched by bar. -/
theorem klineSource_unique_iff {now : Int} {staging : List StagedKline} {source : List GoldRow}
    (h : klineSource now staging = .ok source) : UniqueKeys GoldRow.key fullBarKey source ↔ OneKlinePerBar staging := by
  obtain ⟨rows, rfl, hfrom, hto⟩ := klineSource_ok h
  unfold UniqueKeys
  rw [List.pairwise_map]
  constructor
  · intro hu k hk k' hk' hfull hkey
    obtain ⟨r, hr, hrk, hrow⟩ := hto k hk
    obtain ⟨r', hr', hrk', hrow'⟩ := hto k' hk'
    obtain ⟨x, hx, hxr, -⟩ := rowNumberOne_covers Prod.fst (fun r => r.2.1) rows r hr
    obtain ⟨y, hy, hyr, -⟩ := rowNumberOne_covers Prod.fst (fun r => r.2.1) rows r' hr'
    obtain ⟨a, -, hxa, harow⟩ := hfrom x (mem_of_mem_rowNumberOne _ _ hx)
    obtain ⟨b, -, hyb, hbrow⟩ := hfrom y (mem_of_mem_rowNumberOne _ _ hy)
    have hak : (a.instrumentId, a.openTimeUs) = (k.instrumentId, k.openTimeUs) := by rw [← hxa, hxr, hrk]
    have hbk : (b.instrumentId, b.openTimeUs) = (k'.instrumentId, k'.openTimeUs) := by rw [← hyb, hyr, hrk']
    have hxkey : x.2.2.key = k.barKey := by
      rw [klineRow_key harow]
      unfold StagedKline.barKey
      rw [(Prod.mk.inj hak).1, (Prod.mk.inj hak).2]
    have hykey : y.2.2.key = k'.barKey := by
      rw [klineRow_key hbrow]
      unfold StagedKline.barKey
      rw [(Prod.mk.inj hbk).1, (Prod.mk.inj hbk).2]
    have hu' : UniqueKeys (fun r : NumberedKline => r.2.2.key) fullBarKey
        (rowNumberOne Prod.fst (fun r => r.2.1) rows) := hu
    have hxy : x = y := hu'.eq_of_key hx hy (by rw [hxkey, hykey, hkey]) (by rw [hxkey]; exact hfull)
    have hopen : (k.instrumentId, k.openTimeUs) = (k'.instrumentId, k'.openTimeUs) := by
      rw [← hrk, ← hxr, hxy, hyr, hrk']
    exact (Prod.mk.inj hopen).2
  · intro hone
    have hnodup := rowNumberOne_nodup Prod.fst (fun r : NumberedKline => r.2.1) rows
    refine (List.pairwise_map.1 hnodup).imp_of_mem (fun {x y} hx hy hne hkey => ?_)
    obtain ⟨k, hk, hxk, hrow⟩ := hfrom x (mem_of_mem_rowNumberOne _ _ hx)
    obtain ⟨k', hk', hyk, hrow'⟩ := hfrom y (mem_of_mem_rowNumberOne _ _ hy)
    rw [klineRow_key hrow, klineRow_key hrow'] at hkey
    rw [klineRow_key hrow]
    cases hfull : fullBarKey k.barKey with
    | false => rfl
    | true =>
      have hopen := hone k hk k' hk' hfull hkey
      exact absurd (by rw [hxk, hyk, hopen, (Prod.mk.inj hkey).1]) hne

/-! ## A derived bar stays derived -/

/-- **What a step does to Gold**: a merge of either writer's source, or nothing. -/
theorem Lake.step_gold_cases (lake : Lake) (st : Statement) :
    (∃ now lookbackDays bronze source, st = .mergeGoldBars1m now lookbackDays bronze ∧
      barsSource now (dirtyFromBronze now lookbackDays bronze) lake.silver = .ok source ∧
      goldMerge.run source lake.gold = .ok (lake.step hexMd5 st).gold) ∨
    (∃ now staging source, st = .mergeGoldFromArchive now staging ∧ klineSource now staging = .ok source ∧
      goldArchiveMerge.run source lake.gold = .ok (lake.step hexMd5 st).gold) ∨
    (lake.step hexMd5 st).gold = lake.gold := by
  cases hc : lake.commits hexMd5 st with
  | false => exact Or.inr (Or.inr (by rw [Lake.step_of_not_commits hexMd5 hc]))
  | true =>
    have he := Lake.exec_of_commits hexMd5 hc
    cases st with
    | mergeGoldBars1m now lookbackDays bronze =>
      obtain ⟨gold, hgold, he⟩ := bind_ok he
      rw [mergeGoldBars1m_eq] at hgold
      obtain ⟨source, hsource, hrun⟩ := bind_ok hgold
      refine Or.inl ⟨now, lookbackDays, bronze, source, rfl, hsource, ?_⟩
      rw [hrun, ← Except.ok.inj he]
    | mergeGoldFromArchive now staging =>
      obtain ⟨gold, hgold, he⟩ := bind_ok he
      rw [mergeGoldFromArchive_eq] at hgold
      obtain ⟨source, hsource, hrun⟩ := bind_ok hgold
      refine Or.inr (Or.inl ⟨now, staging, source, rfl, hsource, ?_⟩)
      rw [hrun, ← Except.ok.inj he]
    | mergeSilverTrades | mergeSilverQuarantine | mergeSilverFromArchive =>
      obtain ⟨_, -, he⟩ := bind_ok he
      rw [← Except.ok.inj he]
      exact Or.inr (Or.inr rfl)
    | optimizeSilverTrades rewritten =>
      rw [← Except.ok.inj he]
      refine Or.inr (Or.inr ?_)
      split <;> rfl

theorem getElem?_merged {m : MergeInto GoldRow} {source gold : List GoldRow} {i : Nat} {g : GoldRow}
    (hg : gold[i]? = some g) : (m.merged source gold)[i]? = some (m.updated source g) := by
  unfold MergeInto.merged
  have hi : i < gold.length := by
    rw [List.getElem?_eq_some_iff] at hg
    exact hg.1
  rw [List.getElem?_append_left (by rw [List.length_map]; exact hi), List.getElem?_map, hg]
  rfl

/-- **The archive's writer leaves a derived bar as it is.** -/
theorem goldArchiveMerge_updated {source : List GoldRow} {g : GoldRow} (hg : g.sourceTier = .derivedFromTrades) :
    goldArchiveMerge.updated source g = g := by
  rcases goldArchiveMerge.updated_cases source g with ⟨s, -, -, he⟩ | ⟨-, he⟩
  · rw [he]
    exact if_pos hg
  · exact he

theorem Lake.step_mergeGoldFromArchive_derived (lake : Lake) (now : Int) (staging : List StagedKline) {i : Nat}
    {g : GoldRow} (hg : lake.gold[i]? = some g) (htier : g.sourceTier = .derivedFromTrades) :
    (lake.step hexMd5 (.mergeGoldFromArchive now staging)).gold[i]? = some g := by
  rcases lake.step_gold_cases hexMd5 (.mergeGoldFromArchive now staging) with
    ⟨now', lookbackDays', bronze', source, hst, -⟩ | ⟨now', staging', source, -, -, hrun⟩ | hsame
  · cases hst
  · have hmerged : (lake.step hexMd5 (.mergeGoldFromArchive now staging)).gold = goldArchiveMerge.merged source lake.gold :=
      MergeInto.run_ok hrun
    rw [hmerged, getElem?_merged hg, goldArchiveMerge_updated htier]
  · rw [hsame]
    exact hg

/-- **A step keeps the key and the tier of a derived bar.** -/
theorem Lake.step_derived (lake : Lake) (st : Statement) {i : Nat} {k : BarKey}
    (h : ∃ g, lake.gold[i]? = some g ∧ g.key = k ∧ g.sourceTier = .derivedFromTrades) :
    ∃ g, (lake.step hexMd5 st).gold[i]? = some g ∧ g.key = k ∧ g.sourceTier = .derivedFromTrades := by
  obtain ⟨g, hg, rfl, htier⟩ := h
  rcases lake.step_gold_cases hexMd5 st with ⟨now, lookbackDays, bronze, source, -, hsource, hrun⟩ |
    ⟨now, staging, source, rfl, -, -⟩ | hsame
  · have hmerged : (lake.step hexMd5 st).gold = goldMerge.merged source lake.gold := MergeInto.run_ok hrun
    refine ⟨goldMerge.updated source g, by rw [hmerged, getElem?_merged hg], ?_, ?_⟩
    · exact MergeInto.updated_key goldMerge_keeps_key source g
    · rcases goldMerge.updated_cases source g with ⟨s, hs, -, he⟩ | ⟨-, he⟩
      · rw [he]
        exact (barsSource_ok hsource).1 s hs
      · rw [he]
        exact htier
  · exact ⟨g, lake.step_mergeGoldFromArchive_derived hexMd5 now staging hg htier, rfl, htier⟩
  · exact ⟨g, by rw [hsame]; exact hg, rfl, htier⟩

/-! ## The writers in either order -/

def GoldRow.timeless (g : GoldRow) : GoldRow := { g with updatedTs := 0 }

theorem goldMerge_overrides {source : List GoldRow} (hs : ∀ g ∈ source, g.sourceTier = .derivedFromTrades) :
    goldMerge.Overrides goldArchiveMerge GoldRow.key source where
  keyed := goldMerge_keeps_key
  keyed' := goldArchiveMerge_keeps_key
  overwrites s s' t := by
    show setBar s (if t.sourceTier = .derivedFromTrades then t else setBar s' t) = setBar s t
    split <;> rfl
  leaves s hmem s' t := by
    show (if (setBar s t).sourceTier = .derivedFromTrades then setBar s t else setBar s' (setBar s t)) = setBar s t
    exact if_pos (hs s hmem)
  replaces s t hkey := by
    obtain ⟨hi, hw⟩ := Prod.mk.inj hkey
    show setBar s t = s
    unfold setBar
    rw [← hi, ← hw]

theorem goldOf_timeless (now : Int) (silver : List SilverRow) (k : BarKey) :
    goldOf 0 silver k = (goldOf now silver k).map GoldRow.timeless := by
  unfold goldOf
  cases barOf (groupRows SilverRow.barKey k silver) <;> rfl

theorem klineRow_timeless (now : Int) (k : StagedKline) :
    klineRow 0 k = (klineRow now k).map (fun r => (r.1, r.2.timeless)) := by
  show klineRow 0 k = (fun r => (r.1, GoldRow.timeless r.2)) <$> klineRow now k
  unfold klineRow
  simp only [map_bind, map_pure]
  rfl

theorem barsSource_timeless (now : Int) (dirty : List Partition) (silver : List SilverRow) :
    barsSource 0 dirty silver = (barsSource now dirty silver).map (List.map GoldRow.timeless) := by
  unfold barsSource
  rw [← mapM_map_ok]
  congr 1
  funext k
  exact goldOf_timeless now _ k

theorem klineSource_timeless (now : Int) (staging : List StagedKline) :
    klineSource 0 staging = (klineSource now staging).map (List.map GoldRow.timeless) := by
  have hrows : (staging.mapM fun k => do return ((k.instrumentId, k.openTimeUs), ← klineRow 0 k)) =
      (staging.mapM fun k => do return ((k.instrumentId, k.openTimeUs), ← klineRow now k)).map
        (List.map (fun r : NumberedKline => (r.1, r.2.1, r.2.2.timeless))) := by
    rw [← mapM_map_ok]
    congr 1
    funext k
    rw [klineRow_timeless now k]
    cases klineRow now k <;> rfl
  unfold klineSource
  rw [hrows]
  cases staging.mapM fun k => do return ((k.instrumentId, k.openTimeUs), ← klineRow now k) with
  | error e => rfl
  | ok rows =>
    show Except.ok _ = Except.ok _
    rw [rowNumberOne_map, List.map_map, List.map_map]
    rfl

/-- A Gold statement's table, the old one where it fails. -/
def committed (result : Except Error (List GoldRow)) (gold : List GoldRow) : List GoldRow :=
  match result with
  | .ok gold' => gold'
  | .error _  => gold

theorem Lake.step_gold_eq (lake : Lake) (now : Int) (lookbackDays : Nat) (bronze : List BronzeRow) :
    (lake.step hexMd5 (.mergeGoldBars1m now lookbackDays bronze)).silver = lake.silver ∧
      (lake.step hexMd5 (.mergeGoldBars1m now lookbackDays bronze)).gold =
        committed (mergeGoldBars1m now lookbackDays bronze lake.silver lake.gold) lake.gold := by
  unfold Lake.step Lake.exec
  cases h : mergeGoldBars1m now lookbackDays bronze lake.silver lake.gold <;> simp only [h] <;> exact ⟨rfl, rfl⟩

theorem Lake.step_archive_eq (lake : Lake) (now : Int) (staging : List StagedKline) :
    (lake.step hexMd5 (.mergeGoldFromArchive now staging)).silver = lake.silver ∧
      (lake.step hexMd5 (.mergeGoldFromArchive now staging)).gold =
        committed (mergeGoldFromArchive now staging lake.gold) lake.gold := by
  unfold Lake.step Lake.exec
  cases h : mergeGoldFromArchive now staging lake.gold <;> simp only [h] <;> exact ⟨rfl, rfl⟩

/-- A writer's step on the rows without their update times. -/
def mergeTimeless (m : MergeInto GoldRow) (source : Except Error (List GoldRow)) (gold : List GoldRow) : List GoldRow :=
  committed (source.map (List.map GoldRow.timeless) >>= fun rows => m.run rows gold) gold

/-- **When a writer runs is only in `updated_ts`.** -/
theorem committed_timeless {m : MergeInto GoldRow} (hon : ∀ s t, m.on (GoldRow.timeless s) (GoldRow.timeless t) = m.on s t)
    (hm : ∀ s t, m.whenMatched (GoldRow.timeless s) (GoldRow.timeless t) = GoldRow.timeless (m.whenMatched s t))
    (source : Except Error (List GoldRow)) (gold : List GoldRow) :
    (committed (source >>= fun rows => m.run rows gold) gold).map GoldRow.timeless =
      mergeTimeless m source (gold.map GoldRow.timeless) := by
  cases source with
  | error e => rfl
  | ok rows =>
    show (committed (m.run rows gold) gold).map GoldRow.timeless =
      committed (m.run (rows.map GoldRow.timeless) (gold.map GoldRow.timeless)) (gold.map GoldRow.timeless)
    rw [MergeInto.run_map hon hm]
    cases m.run rows gold <;> rfl

theorem goldArchiveMerge_timeless (s t : GoldRow) : goldArchiveMerge.whenMatched s.timeless t.timeless =
    (goldArchiveMerge.whenMatched s t).timeless := by
  show (if t.sourceTier = .derivedFromTrades then t.timeless else setBar s.timeless t.timeless) =
    (if t.sourceTier = .derivedFromTrades then t else setBar s t).timeless
  split <;> rfl

theorem mergeTimeless_comm {now now' later later' : Int} {dirty : List Partition} {silver : List SilverRow}
    {staging : List StagedKline} (hone : OneKlinePerBar staging) (gold : List GoldRow) :
    (mergeTimeless goldArchiveMerge (klineSource later staging)
        (mergeTimeless goldMerge (barsSource now dirty silver) gold)).Perm
      (mergeTimeless goldMerge (barsSource later' dirty silver)
        (mergeTimeless goldArchiveMerge (klineSource now' staging) gold)) := by
  unfold mergeTimeless
  rw [← barsSource_timeless now, ← barsSource_timeless later', ← klineSource_timeless now', ← klineSource_timeless later]
  cases hbars : barsSource 0 dirty silver with
  | error e => exact List.Perm.refl _
  | ok bars =>
    cases hklines : klineSource 0 staging with
    | error e => exact List.Perm.refl _
    | ok klines =>
      obtain ⟨hderived, hunique⟩ := barsSource_ok hbars
      have hunique' := (klineSource_unique_iff hklines).2 hone
      have hrun := goldMerge_keyed.run_eq_of_unique hunique
      have hrun' := goldArchiveMerge_keyed.run_eq_of_unique hunique'
      show (committed (goldArchiveMerge.run klines (committed (goldMerge.run bars gold) gold)) _).Perm
        (committed (goldMerge.run bars (committed (goldArchiveMerge.run klines gold) gold)) _)
      simp only [hrun, hrun', committed]
      exact (goldMerge_overrides hderived).commute goldMerge_keyed goldArchiveMerge_keyed hunique hunique' gold

/-- **The fidelity guard over whole runs.**  A derived bar keeps its key and its tier; an archive merge leaves the whole
row as it is; and with one kline of each bar the two writers, whenever each runs, give the same rows in either order but
for `updated_ts`. -/
theorem goldFidelity :
    (∀ (run : List Statement) (lake : Lake) (i : Nat) (g : GoldRow), lake.gold[i]? = some g →
      g.sourceTier = .derivedFromTrades →
      ∃ g', (lake.run hexMd5 run).gold[i]? = some g' ∧ g'.key = g.key ∧ g'.sourceTier = .derivedFromTrades) ∧
    (∀ (lake : Lake) (now : Int) (staging : List StagedKline) (i : Nat) (g : GoldRow), lake.gold[i]? = some g →
      g.sourceTier = .derivedFromTrades →
      (lake.step hexMd5 (.mergeGoldFromArchive now staging)).gold[i]? = some g) ∧
    ∀ (lake : Lake) (now now' later later' : Int) (lookbackDays lookbackDays' : Nat) (bronze bronze' : List BronzeRow)
      (staging : List StagedKline), OneKlinePerBar staging →
      dirtyFromBronze now lookbackDays bronze = dirtyFromBronze later' lookbackDays' bronze' →
      ((lake.run hexMd5 [.mergeGoldBars1m now lookbackDays bronze, .mergeGoldFromArchive later staging]).gold.map
          GoldRow.timeless).Perm
        ((lake.run hexMd5 [.mergeGoldFromArchive now' staging, .mergeGoldBars1m later' lookbackDays' bronze']).gold.map
          GoldRow.timeless) := by
  refine ⟨fun run lake i g hg htier => ?_, fun lake now staging i g hg htier =>
    lake.step_mergeGoldFromArchive_derived hexMd5 now staging hg htier, ?_⟩
  · exact run_invariant (I := fun lake : Lake => ∃ g', lake.gold[i]? = some g' ∧ g'.key = g.key ∧
      g'.sourceTier = .derivedFromTrades) (fun lake st h => lake.step_derived hexMd5 st h) run ⟨g, hg, rfl, htier⟩
  · intro lake now now' later later' lookbackDays lookbackDays' bronze bronze' staging hone hdirty
    have hbars : ∀ (lake : Lake) (now : Int) (lookbackDays : Nat) (bronze : List BronzeRow),
        (lake.step hexMd5 (.mergeGoldBars1m now lookbackDays bronze)).gold.map GoldRow.timeless =
          mergeTimeless goldMerge (barsSource now (dirtyFromBronze now lookbackDays bronze) lake.silver)
            (lake.gold.map GoldRow.timeless) := fun lake now lookbackDays bronze => by
      rw [(lake.step_gold_eq hexMd5 now lookbackDays bronze).2, mergeGoldBars1m_eq]
      exact committed_timeless (fun _ _ => rfl) (fun _ _ => rfl) _ _
    have hfill : ∀ (lake : Lake) (now : Int),
        (lake.step hexMd5 (.mergeGoldFromArchive now staging)).gold.map GoldRow.timeless =
          mergeTimeless goldArchiveMerge (klineSource now staging) (lake.gold.map GoldRow.timeless) := fun lake now => by
      rw [(lake.step_archive_eq hexMd5 now staging).2, mergeGoldFromArchive_eq]
      exact committed_timeless (fun _ _ => rfl) goldArchiveMerge_timeless _ _
    have hfirst : (lake.run hexMd5 [.mergeGoldBars1m now lookbackDays bronze, .mergeGoldFromArchive later staging]).gold.map
        GoldRow.timeless = mergeTimeless goldArchiveMerge (klineSource later staging)
          (mergeTimeless goldMerge (barsSource now (dirtyFromBronze now lookbackDays bronze) lake.silver)
            (lake.gold.map GoldRow.timeless)) := by
      rw [← hbars]
      exact hfill _ later
    have hsecond : (lake.run hexMd5
          [.mergeGoldFromArchive now' staging, .mergeGoldBars1m later' lookbackDays' bronze']).gold.map GoldRow.timeless =
        mergeTimeless goldMerge (barsSource later' (dirtyFromBronze now lookbackDays bronze) lake.silver)
          (mergeTimeless goldArchiveMerge (klineSource now' staging) (lake.gold.map GoldRow.timeless)) := by
      rw [← hfill, hdirty, ← (lake.step_archive_eq hexMd5 now' staging).1]
      exact hbars _ later' lookbackDays' bronze'
    rw [hfirst, hsecond]
    exact mergeTimeless_comm hone (lake.gold.map GoldRow.timeless)

def derivedBar : GoldRow :=
  { instrumentId := some "BTC-USD", windowEndTs := some 1728000660000000
    bar := { opening := none, high := none, low := none, close := none, volume := none, notional := none, buyVol := none
             sellVol := none, sqLogReturn := .zero, tradeCount := some 1, venueCoverage := 1 }
    sourceTier := .derivedFromTrades, updatedTs := 1728000900000 }

/-- The archive's kline of the same minute. -/
def minuteKline : StagedKline :=
  { instrumentId := some "BTC-USD", openTimeUs := some "1728000600000000", opening := some "60000", high := some "60002"
    low := some "59999", close := some "60001", volume := some "3", quoteVolume := some "180003"
    tradeCount := some "2", takerBuyBaseVolume := some "1" }

/-- Silver has a trade of the minute, whose bar is not built yet. -/
def silverLake : Lake := Lake.empty.run id [.mergeSilverTrades 1728000850000 1 [firstTrade]]

theorem goldFidelity_minuteKline :
    (∃ g, ((⟨[], [], [derivedBar]⟩ : Lake).run id [.mergeGoldFromArchive 1728001000000 [minuteKline]]).gold[0]? = some g ∧
      g.key = derivedBar.key ∧ g.sourceTier = .derivedFromTrades) ∧
    ((⟨[], [], [derivedBar]⟩ : Lake).step id (.mergeGoldFromArchive 1728001000000 [minuteKline])).gold[0]? =
      some derivedBar ∧
    ((silverLake.run id [.mergeGoldBars1m 1728000900000 1 [firstTrade],
        .mergeGoldFromArchive 1728001000000 [minuteKline]]).gold.map GoldRow.timeless).Perm
      ((silverLake.run id [.mergeGoldFromArchive 1728000800000 [minuteKline],
        .mergeGoldBars1m 1728000900000 1 [firstTrade]]).gold.map GoldRow.timeless) ∧
    (silverLake.run id [.mergeGoldFromArchive 1728000800000 [minuteKline],
      .mergeGoldBars1m 1728000900000 1 [firstTrade]]).gold.map GoldRow.sourceTier = [.derivedFromTrades] := by
  have hone : OneKlinePerBar [minuteKline] := by
    intro k hk k' hk' _ _
    rw [List.mem_singleton.1 hk, List.mem_singleton.1 hk']
  exact ⟨(goldFidelity id).1 _ ⟨[], [], [derivedBar]⟩ 0 derivedBar rfl rfl,
    (goldFidelity id).2.1 ⟨[], [], [derivedBar]⟩ 1728001000000 [minuteKline] 0 derivedBar rfl rfl,
    (goldFidelity id).2.2 silverLake 1728000900000 1728000800000 1728001000000 1728000900000 1 1 [firstTrade] [firstTrade]
      [minuteKline] hone rfl, by decide +kernel⟩

end Awsnative
