import RealtimeFinance.Sql.Nullable
import RealtimeFinance.Sql.Upsert
import RealtimeFinance.Backfill.Checksum
import RealtimeFinance.Backfill.Epoch
/-!
# Manifest — `awsnative.backfill.tiers`, `.manifest` and `.seed`, and `merge_manifest_outcomes.sql`

Which archive files there are, the work items a run is planned with, and the table that remembers what became of each
file.  A date is a number of days.
-/
namespace Backfill

open Sql

/-! ## Archive files and work items -/

inductive Tier
  | deep
  | hot
  deriving DecidableEq

inductive Granularity
  | monthly
  | daily
  deriving DecidableEq

def Granularity.text : Granularity → String
  | .monthly => "monthly"
  | .daily   => "daily"

structure TierLayout where
  dataset : String
  intervalSegment : String
  nameInfix : String

def layouts : Tier → TierLayout
  | .deep => { dataset := "klines", intervalSegment := "1m/", nameInfix := "1m" }
  | .hot  => { dataset := "aggTrades", intervalSegment := "", nameInfix := "aggTrades" }

structure ArchiveFile where
  tier : Tier
  instrumentId : String
  venueSymbol : String
  granularity : Granularity
  period : String
  dt : Int
  deriving DecidableEq

def ArchiveFile.filename (f : ArchiveFile) : String :=
  f.venueSymbol ++ "-" ++ (layouts f.tier).nameInfix ++ "-" ++ f.period ++ ".zip"

def ArchiveFile.key (f : ArchiveFile) : String :=
  "data/spot/" ++ f.granularity.text ++ "/" ++ (layouts f.tier).dataset ++ "/" ++ f.venueSymbol ++ "/" ++
    (layouts f.tier).intervalSegment ++ f.filename

structure WorkItem where
  tier : Tier
  venue : String
  instrumentId : String
  venueSymbol : String
  granularity : Granularity
  period : String
  dt : Int
  archiveKey : String
  stagingKey : String
  deriving DecidableEq

def archiveBaseUrl : String := "https://data.binance.vision"

def urlOf (archiveKey : String) : String := archiveBaseUrl ++ "/" ++ archiveKey

def checksumUrlOf (archiveKey : String) : String := urlOf archiveKey ++ ".CHECKSUM"

/-- `archive_key.rsplit("/", 1)[-1]`. -/
def filenameOf (archiveKey : String) : String := String.ofList ((archiveKey.toList.splitOn '/').getLastD [])

def stagingPrefixes : Tier → String
  | .deep => "archive_staging_klines"
  | .hot  => "archive_staging_trades"

def stagingKeyFor (f : ArchiveFile) : String :=
  stagingPrefixes f.tier ++ "/" ++ f.instrumentId ++ "-" ++ f.period ++ ".csv.gz"

def workItem (f : ArchiveFile) : WorkItem :=
  { tier := f.tier, venue := "binance", instrumentId := f.instrumentId, venueSymbol := f.venueSymbol
    granularity := f.granularity, period := f.period, dt := f.dt, archiveKey := f.key, stagingKey := stagingKeyFor f }

/-- `plan(files, already_done)`. -/
def plan (files : List ArchiveFile) (alreadyDone : List String) : List WorkItem :=
  (files.filter (fun f => !alreadyDone.contains f.key)).map workItem

/-! ## Outcomes -/

inductive Status
  | pending
  | running
  | done
  | failed
  | skippedNoData
  deriving DecidableEq

def Status.text : Status → String
  | .pending       => "PENDING"
  | .running       => "RUNNING"
  | .done          => "DONE"
  | .failed        => "FAILED"
  | .skippedNoData => "SKIPPED_NO_DATA"

/-- Where a status stands when the texts are sorted. -/
def Status.rank : Status → Int
  | .done          => 0
  | .failed        => 1
  | .pending       => 2
  | .running       => 3
  | .skippedNoData => 4

theorem Status.rank_lt_iff (a b : Status) : a.rank < b.rank ↔ a.text < b.text := by
  cases a <;> cases b <;> decide

/-- What a bad archive file raises, within `_DATA_ERRORS`. -/
inductive DataError
  | checksum (error : ChecksumError)
  | parse (error : ParseError)
  | unicodeDecode
  | members (names : List String)
  | badZipFile
  deriving DecidableEq

/-- The reason an outcome carries. -/
inductive Reason
  | none
  | archiveNotFound (url : String)
  | data (error : DataError)
  deriving DecidableEq

structure Outcome where
  archiveKey : String
  status : Status
  sha256Actual : String
  rowCount : Nat
  error : Reason
  deriving DecidableEq

namespace Outcome

-- The three ways `load` ends.
def ofDone (archiveKey sha256 : String) (rowCount : Nat) : Outcome := ⟨archiveKey, .done, sha256, rowCount, .none⟩

def ofSkippedNoData (archiveKey : String) (reason : Reason) : Outcome := ⟨archiveKey, .skippedNoData, "", 0, reason⟩

def ofFailed (archiveKey : String) (reason : Reason) : Outcome := ⟨archiveKey, .failed, "", 0, reason⟩

end Outcome

/-- A row of `backfill_outcomes`: the item's fields and the outcome's. -/
structure OutcomeRow where
  item : WorkItem
  outcome : Outcome
  deriving DecidableEq

/-! ## The manifest -/

structure ManifestRow where
  archiveKey : String
  tier : Tier
  venue : String
  instrumentId : String
  venueSymbol : String
  granularity : Granularity
  period : String
  dt : Int
  url : String
  sha256Actual : String
  rowCount : Nat
  status : Status
  error : Reason
  completedTs : Int
  deriving DecidableEq

/-- The `SELECT` list; the handler's outcome is the later of the two dicts that name the archive key. -/
def manifestRow (now : Int) (o : OutcomeRow) : ManifestRow :=
  { archiveKey := o.outcome.archiveKey, tier := o.item.tier, venue := o.item.venue, instrumentId := o.item.instrumentId
    venueSymbol := o.item.venueSymbol, granularity := o.item.granularity, period := o.item.period, dt := o.item.dt
    url := urlOf o.outcome.archiveKey, sha256Actual := o.outcome.sha256Actual, rowCount := o.outcome.rowCount
    status := o.outcome.status, error := o.outcome.error, completedTs := now }

/-- `ON m.archive_key = s.archive_key`, and `UPDATE SET` of every other column. -/
def manifestMerge : MergeInto ManifestRow where
  on s t := equals (some t.archiveKey) (some s.archiveKey)
  whenMatched s t := { s with archiveKey := t.archiveKey }

/-- The outcome taken of each archive key: `PARTITION BY archive_key ORDER BY status ASC`. -/
def recorded (outcomes : List OutcomeRow) : List OutcomeRow :=
  rowNumberOne (fun o => o.outcome.archiveKey) (fun o => some o.outcome.status.rank) outcomes

def mergeManifestOutcomes (now : Int) (outcomes : List OutcomeRow) (manifest : List ManifestRow) :
    Except Error (List ManifestRow) :=
  manifestMerge.run ((recorded outcomes).map (manifestRow now)) manifest

/-- `done_keys_sql` of the tier, of which Athena returns one page: the header and 999 rows. -/
def doneKeys (tier : Tier) (manifest : List ManifestRow) : List String :=
  (((manifest.filter (fun r => decide (r.tier = tier ∧ r.status = .done))).take 999).map ManifestRow.archiveKey).filter
    (fun key => !key.isEmpty)

/-! ## What the merge does -/

theorem manifestMerge_keyed : manifestMerge.Keyed ManifestRow.archiveKey (fun _ => true) := by
  intro s t
  unfold MergeInto.hits manifestMerge
  rw [decide_eq_true_eq, equals_eq_true]
  constructor
  · rintro ⟨h, -⟩
    exact ⟨(Option.some.inj h).symm, rfl⟩
  · rintro ⟨h, -⟩
    exact ⟨by rw [h], rfl⟩

theorem manifestMerge_keeps_key (s t : ManifestRow) : (manifestMerge.whenMatched s t).archiveKey = t.archiveKey := rfl

/-- **One row of an archive key is taken**, so no manifest row is matched twice. -/
theorem recorded_unique (now : Int) (outcomes : List OutcomeRow) :
    UniqueKeys ManifestRow.archiveKey (fun _ => true) ((recorded outcomes).map (manifestRow now)) := by
  refine uniqueKeys_of_nodup ?_
  rw [List.map_map]
  exact rowNumberOne_nodup _ _ _

theorem mergeManifestOutcomes_ok (now : Int) (outcomes : List OutcomeRow) (manifest : List ManifestRow) :
    mergeManifestOutcomes now outcomes manifest =
      .ok (manifestMerge.merged ((recorded outcomes).map (manifestRow now)) manifest) :=
  manifestMerge_keyed.run_eq_of_unique (recorded_unique now outcomes) manifest

theorem mem_mergeManifestOutcomes {now : Int} {outcomes : List OutcomeRow} {manifest : List ManifestRow}
    {r : ManifestRow} : r ∈ manifestMerge.merged ((recorded outcomes).map (manifestRow now)) manifest ↔
      (∃ o ∈ recorded outcomes, manifestRow now o = r) ∨
        r ∈ manifest ∧ ∀ s ∈ (recorded outcomes).map (manifestRow now), s.archiveKey ≠ r.archiveKey := by
  have hreplaces : ∀ s t : ManifestRow, s.archiveKey = t.archiveKey → manifestMerge.whenMatched s t = s := by
    intro s t h
    show { s with archiveKey := t.archiveKey } = s
    rw [← h]
  rw [manifestMerge_keyed.mem_merged_iff (fun _ => rfl) hreplaces (recorded_unique now outcomes), List.mem_map]

end Backfill
