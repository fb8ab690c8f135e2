import RealtimeFinance.Awsnative.GoldFidelity
import RealtimeFinance.Backfill.Staging
/-!
# GoldKeys — one Gold row of each bar, over both writers

The stream's source has one row a bar because it groups by bar.  The archive's is numbered by `open_time_us` and matched
by the minute that is truncated to, so two open times of one minute are two rows of one bar: without a target row both are
inserted, and with one the statement fails.  Both are excluded exactly when no staging that casts holds two such open
times (`goldKeys_iff`).
-/
namespace Awsnative

open Sql Runs Backfill

/-- A Gold statement with everything it reads besides Gold. -/
inductive GoldWrite
  | mergeGoldBars1m (now : Int) (lookbackDays : Nat) (bronze : List BronzeRow) (silver : List SilverRow)
  | mergeGoldFromArchive (now : Int) (staging : List StagedKline)

def GoldWrite.source : GoldWrite → Except Error (List GoldRow)
  | .mergeGoldBars1m now lookbackDays bronze silver => barsSource now (dirtyFromBronze now lookbackDays bronze) silver
  | .mergeGoldFromArchive now staging               => klineSource now staging

def GoldWrite.merge : GoldWrite → MergeInto GoldRow
  | .mergeGoldBars1m _ _ _ _    => goldMerge
  | .mergeGoldFromArchive _ _   => goldArchiveMerge

def GoldWrite.exec (gold : List GoldRow) : GoldWrite → Except Error (List GoldRow)
  | .mergeGoldBars1m now lookbackDays bronze silver => Awsnative.mergeGoldBars1m now lookbackDays bronze silver gold
  | .mergeGoldFromArchive now staging               => Awsnative.mergeGoldFromArchive now staging gold

def GoldWrite.step (gold : List GoldRow) (w : GoldWrite) : List GoldRow := committed (w.exec gold) gold

theorem GoldWrite.exec_eq (gold : List GoldRow) (w : GoldWrite) :
    w.exec gold = w.source >>= (fun source => w.merge.run source gold) := by
  cases w with
  | mergeGoldBars1m now lookbackDays bronze silver => exact mergeGoldBars1m_eq now lookbackDays bronze silver gold
  | mergeGoldFromArchive now staging => exact mergeGoldFromArchive_eq now staging gold

/-- The statement presents two source rows for one target row. -/
def GoldWrite.PresentsTwo (gold : List GoldRow) (w : GoldWrite) : Prop :=
  ∃ source, w.source = .ok source ∧ w.merge.MatchesTwice source gold

/-- After the statement no two rows share an `(instrument_id, window_end_ts)`, and it matched no row twice. -/
def OneRowPerBar (gold : List GoldRow) (w : GoldWrite) : Prop :=
  UniqueKeys GoldRow.key fullBarKey (w.step gold) ∧ ¬ w.PresentsTwo gold

/-- **A staging whose rows all cast has one open time of each bar.** -/
def GoldWrite.OneOpenTime (_ : List GoldRow) (w : GoldWrite) : Prop :=
  ∀ now staging, w = .mergeGoldFromArchive now staging → (∀ k ∈ staging, ∃ r, klineRow now k = .ok r) →
    OneKlinePerBar staging

theorem GoldWrite.merge_keyed (w : GoldWrite) : w.merge.Keyed GoldRow.key fullBarKey := by
  cases w with
  | mergeGoldBars1m now lookbackDays bronze silver => exact goldMerge_keyed
  | mergeGoldFromArchive now staging => exact goldArchiveMerge_keyed

theorem GoldWrite.merge_keeps_key (w : GoldWrite) (s t : GoldRow) : (w.merge.whenMatched s t).key = t.key := by
  cases w with
  | mergeGoldBars1m now lookbackDays bronze silver => exact goldMerge_keeps_key s t
  | mergeGoldFromArchive now staging => exact goldArchiveMerge_keeps_key s t

theorem klineSource_casts_iff {now : Int} {staging : List StagedKline} :
    (∃ source, klineSource now staging = .ok source) ↔ ∀ k ∈ staging, ∃ r, klineRow now k = .ok r := by
  constructor
  · rintro ⟨source, hsource⟩ k hk
    obtain ⟨rows, -, -, hto⟩ := klineSource_ok hsource
    obtain ⟨r, -, -, hrow⟩ := hto k hk
    exact ⟨r.2, hrow⟩
  · intro h
    have hrows : ∀ k ∈ staging, ∃ r : NumberedKline,
        (do return ((k.instrumentId, k.openTimeUs), ← klineRow now k) : Except Error NumberedKline) = .ok r := fun k hk => by
      obtain ⟨r, hr⟩ := h k hk
      exact ⟨((k.instrumentId, k.openTimeUs), r), by rw [hr]; rfl⟩
    obtain ⟨rows, hmap⟩ := mapM_total hrows
    refine ⟨(rowNumberOne Prod.fst (fun r => r.2.1) rows).map (fun r => r.2.2), ?_⟩
    unfold klineSource
    rw [hmap]
    rfl

/-- **A statement's source has unique keys exactly when** its open times are one a bar. -/
theorem GoldWrite.source_unique_iff (gold : List GoldRow) (w : GoldWrite) :
    (∀ source, w.source = .ok source → UniqueKeys GoldRow.key fullBarKey source) ↔ w.OneOpenTime gold := by
  cases w with
  | mergeGoldBars1m now lookbackDays bronze silver =>
    exact iff_of_true (fun source h => (barsSource_ok h).2) (fun now' staging hw => by cases hw)
  | mergeGoldFromArchive now staging =>
    constructor
    · intro h now' staging' hw hcasts
      cases hw
      obtain ⟨source, hsource⟩ := klineSource_casts_iff.2 hcasts
      exact (klineSource_unique_iff hsource).1 (h source hsource)
    · intro h source hsource
      exact (klineSource_unique_iff hsource).2 (h now staging rfl (klineSource_casts_iff.1 ⟨source, hsource⟩))

theorem oneRowPerBar_step_iff {gold : List GoldRow} (hu : UniqueKeys GoldRow.key fullBarKey gold) (w : GoldWrite) :
    OneRowPerBar gold w ↔ w.OneOpenTime gold := by
  rw [← w.source_unique_iff gold]
  unfold OneRowPerBar GoldWrite.PresentsTwo GoldWrite.step
  rw [w.exec_eq gold]
  cases hsource : w.source with
  | error e =>
    refine iff_of_true ⟨hu, ?_⟩ (fun source h => by cases h)
    rintro ⟨source, h, -⟩
    cases h
  | ok source =>
    have hiff : (¬ w.merge.MatchesTwice source gold ∧ UniqueKeys GoldRow.key fullBarKey (w.merge.merged source gold)) ↔
        UniqueKeys GoldRow.key fullBarKey source := w.merge_keyed.unique_iff w.merge_keeps_key hu
    have hrun : ¬ w.merge.MatchesTwice source gold → committed (Except.ok source >>= fun source => w.merge.run source gold) gold =
        w.merge.merged source gold := fun h => by
      show committed (w.merge.run source gold) gold = w.merge.merged source gold
      rw [MergeInto.run_eq_merged h]
      rfl
    constructor
    · rintro ⟨hunique, htwice⟩ source' hs
      cases hs
      have hnot : ¬ w.merge.MatchesTwice source gold := fun h => htwice ⟨source, rfl, h⟩
      rw [hrun hnot] at hunique
      exact hiff.1 ⟨hnot, hunique⟩
    · intro h
      obtain ⟨hnot, hunique⟩ := hiff.2 (h source rfl)
      refine ⟨by rw [hrun hnot]; exact hunique, ?_⟩
      rintro ⟨source', hs, htwice⟩
      cases hs
      exact hnot htwice

/-- **Over any interleaving of the two writers, from an empty table, Gold keeps one row of each bar and no statement
presents two source rows for one exactly when** every staging that casts has one open time of each bar. -/
theorem goldKeys_iff (writes : List GoldWrite) :
    AllSteps GoldWrite.step OneRowPerBar [] writes ↔ AllSteps GoldWrite.step GoldWrite.OneOpenTime [] writes :=
  AllSteps.congr (I := UniqueKeys GoldRow.key fullBarKey) (fun _ w hu => oneRowPerBar_step_iff hu w)
    (fun _ _ _ h => h.1) List.Pairwise.nil

/-- What the loader has staged: each deep-tier file parsed and written whole, the objects scanned in some order. -/
def LoadedKlines (staging : List StagedKline) : Prop :=
  ∃ (files : List (String × List String)) (parts : List (List StagedKline)),
    files.map (fun file => stageKlines file.1 file.2) = parts.map Except.ok ∧ staging.Perm parts.flatten

/-- Two open times half a minute apart. -/
def halfMinuteKlines : List String :=
  ["1749945600000000,6,8,6,7,2,1749945629999999,14,5,1,7,0", "1749945630000000,7,9,7,9,1,1749945659999999,8,2,1,8,0"]

/-- What is staged of them. -/
def halfMinuteStaging : List StagedKline :=
  [{ instrumentId := some "BTC-USD", openTimeUs := some "1749945600000000", opening := some "6", high := some "8"
     low := some "6", close := some "7", volume := some "2", quoteVolume := some "14", tradeCount := some "5"
     takerBuyBaseVolume := some "1" },
    { instrumentId := some "BTC-USD", openTimeUs := some "1749945630000000", opening := some "7", high := some "9"
      low := some "7", close := some "9", volume := some "1", quoteVolume := some "8", tradeCount := some "2"
      takerBuyBaseVolume := some "1" }]

/-- Neither half has a row in Gold yet: both are inserted, for one bar. -/
theorem half_minute_klines_enter_twice :
    ¬ ∀ writes : List GoldWrite,
      (∀ now staging, GoldWrite.mergeGoldFromArchive now staging ∈ writes → LoadedKlines staging) →
      AllSteps GoldWrite.step OneRowPerBar [] writes := by
  intro h
  have hstage : (stageKlines "BTC-USD" halfMinuteKlines).toOption = some halfMinuteStaging := by decide +kernel
  have hfile : stageKlines "BTC-USD" halfMinuteKlines = .ok halfMinuteStaging := by
    cases hs : stageKlines "BTC-USD" halfMinuteKlines with
    | error e => rw [hs] at hstage; cases hstage
    | ok staging => rw [hs] at hstage; rw [Option.some.inj hstage]
  have hloaded : LoadedKlines halfMinuteStaging :=
    ⟨[("BTC-USD", halfMinuteKlines)], [halfMinuteStaging], by simp [hfile], by simp⟩
  have hone := h [.mergeGoldFromArchive 1750000000000 halfMinuteStaging] (fun now staging hw => by
    rw [List.mem_singleton] at hw
    cases hw
    exact hloaded)
  have hlast := hone [] (.mergeGoldFromArchive 1750000000000 halfMinuteStaging) [] rfl
  exact absurd hlast.1 (by unfold UniqueKeys; decide)

end Awsnative
