import Mathlib.Data.Finset.Sort
import Mathlib.Data.String.Basic
import RealtimeFinance.Ingest.Accounting
import RealtimeFinance.Ingest.Models
import RealtimeFinance.Merges
/-!
# SequenceGaps — `devlab.health.sequence_gaps`

The records of a topic, read back through one `SequenceTracker`.  Kafka orders the records of a partition and no others,
so what is read is some merge of the partitions; the report is the same for every merge, because an observation touches
its own key only and the records of a key are in one partition.
-/
namespace Devlab

open Ingest (Gap SequenceKey SequenceTracker Observation Trade)
open Merges (Merge KeysApart)
open Runs (outputs)

/-- What `sequence_gaps` reads of a record. -/
structure TradeRecord where
  venue : String
  venueSymbol : String
  sequence : Option Int

def TradeRecord.key (r : TradeRecord) : SequenceKey := (r.venue, r.venueSymbol)

def connectionScopedSequenceVenues : List String := ["coinbase"]

structure GapReport where
  checked : Nat
  gaps : List Gap
  skippedVenues : List String

def GapReport.missing (report : GapReport) : Int := (report.gaps.map Gap.missingCount).sum

structure GapReplay where
  tracker : SequenceTracker
  found : List Gap
  checked : Nat
  skipped : Finset String

def GapReplay.new : GapReplay := { tracker := SequenceTracker.new, found := [], checked := 0, skipped := ∅ }

/-- One turn of the loop. -/
def GapReplay.see (st : GapReplay) (r : TradeRecord) : GapReplay :=
  if r.venue ∈ connectionScopedSequenceVenues then { st with skipped := insert r.venue st.skipped }
  else if r.sequence.isNone then st
  else
    let observed := st.tracker.observe r.venue r.venueSymbol r.sequence
    { st with tracker := observed.1, checked := st.checked + 1, found := st.found ++ observed.2.toList }

def sequenceGaps (records : List TradeRecord) : GapReport :=
  let st := records.foldl GapReplay.see GapReplay.new
  { checked := st.checked, gaps := st.found, skippedVenues := st.skipped.sort }

/-- The record is neither of a connection-scoped venue nor without a sequence. -/
def TradeRecord.checkable (r : TradeRecord) : Bool :=
  decide (r.venue ∉ connectionScopedSequenceVenues) && r.sequence.isSome

def TradeRecord.observation (r : TradeRecord) : Observation := { key := r.key, sequence := r.sequence }

/-- What the tracker is shown of the records, in their order. -/
def observations (records : List TradeRecord) : List Observation :=
  (records.filter TradeRecord.checkable).map TradeRecord.observation

def skippedVenuesOf (records : List TradeRecord) : Finset String :=
  ((records.map TradeRecord.venue).filter (fun venue => venue ∈ connectionScopedSequenceVenues)).toFinset

section Replay

variable (st : GapReplay) {r : TradeRecord}

theorem GapReplay.see_of_checkable (h : r.checkable = true) :
    st.see r = { st with
      tracker := st.tracker.after r.observation, checked := st.checked + 1
      found := st.found ++ (st.tracker.returned r.observation).toList } := by
  unfold TradeRecord.checkable at h
  rw [Bool.and_eq_true, decide_eq_true_eq] at h
  unfold GapReplay.see
  rw [if_neg h.1, if_neg (by simp [Option.isSome_iff_ne_none.1 h.2])]
  rfl

theorem GapReplay.see_of_not_checkable (h : r.checkable = false) :
    st.see r = { st with
      skipped := if r.venue ∈ connectionScopedSequenceVenues then insert r.venue st.skipped else st.skipped } := by
  unfold GapReplay.see
  by_cases hv : r.venue ∈ connectionScopedSequenceVenues
  · rw [if_pos hv, if_pos hv]
  · have hnone : r.sequence.isNone = true := by simpa [TradeRecord.checkable, hv] using h
    rw [if_neg hv, if_neg hv, if_pos hnone]

theorem observations_cons_of_checkable (h : r.checkable = true) (records : List TradeRecord) :
    observations (r :: records) = r.observation :: observations records := by
  unfold observations
  rw [List.filter_cons_of_pos h, List.map_cons]

theorem observations_cons_of_not_checkable (h : r.checkable = false) (records : List TradeRecord) :
    observations (r :: records) = observations records := by
  unfold observations
  rw [List.filter_cons_of_neg (by simp [h])]

theorem GapReplay.found_foldl : ∀ (records : List TradeRecord) (st : GapReplay),
    (records.foldl GapReplay.see st).found =
      st.found ++ outputs SequenceTracker.after SequenceTracker.returned st.tracker (observations records)
  | [], st           => (List.append_nil _).symm
  | r :: records, st => by
    rw [List.foldl_cons, found_foldl records]
    cases h : r.checkable with
    | true => rw [st.see_of_checkable h, observations_cons_of_checkable h, outputs, List.append_assoc]
    | false => rw [st.see_of_not_checkable h, observations_cons_of_not_checkable h]

theorem GapReplay.checked_foldl : ∀ (records : List TradeRecord) (st : GapReplay),
    (records.foldl GapReplay.see st).checked = st.checked + records.countP TradeRecord.checkable
  | [], st           => rfl
  | r :: records, st => by
    rw [List.foldl_cons, checked_foldl records]
    cases h : r.checkable with
    | true =>
      rw [st.see_of_checkable h, List.countP_cons_of_pos h]
      exact Nat.add_right_comm _ _ _
    | false => rw [st.see_of_not_checkable h, List.countP_cons_of_neg (by simp [h])]

theorem GapReplay.skipped_foldl : ∀ (records : List TradeRecord) (st : GapReplay),
    (records.foldl GapReplay.see st).skipped = st.skipped ∪ skippedVenuesOf records
  | [], st           => (Finset.union_empty _).symm
  | r :: records, st => by
    rw [List.foldl_cons, skipped_foldl records]
    unfold skippedVenuesOf
    rw [List.map_cons]
    by_cases hv : r.venue ∈ connectionScopedSequenceVenues
    · have h : r.checkable = false := by simp [TradeRecord.checkable, hv]
      rw [st.see_of_not_checkable h, if_pos hv, List.filter_cons_of_pos (by simpa using hv), List.toFinset_cons,
        Finset.insert_union, Finset.union_insert]
    · rw [List.filter_cons_of_neg (by simpa using hv)]
      cases h : r.checkable with
      | true => rw [st.see_of_checkable h]
      | false => rw [st.see_of_not_checkable h, if_neg hv]

end Replay

section Keys

variable {t t' : SequenceTracker}

/-- What an observation returns, and where it leaves its key, is read off its key's watermark. -/
theorem observe_congr {o : Observation} (h : t.watermarks o.key = t'.watermarks o.key) :
    t.returned o = t'.returned o ∧ (t.after o).watermarks o.key = (t'.after o).watermarks o.key := by
  cases hs : o.sequence with
  | none =>
    rw [SequenceTracker.after_other t (Or.inl hs), SequenceTracker.after_other t' (Or.inl hs)]
    exact ⟨by simp [SequenceTracker.returned, SequenceTracker.observe, hs], h⟩
  | some s =>
    cases hw : t.watermarks o.key with
    | none =>
      obtain ⟨hafter, hret, -⟩ := t.observe_none rfl hs hw
      obtain ⟨hafter', hret', -⟩ := t'.observe_none rfl hs (h.symm.trans hw)
      exact ⟨hret.trans hret'.symm, hafter.trans hafter'.symm⟩
    | some w =>
      obtain ⟨hafter, -, hret⟩ := t.observe_some rfl hs hw
      obtain ⟨hafter', -, hret'⟩ := t'.observe_some rfl hs (h.symm.trans hw)
      exact ⟨hret.trans hret'.symm, hafter.trans hafter'.symm⟩

/-- **A key's gaps are those of its own observations**: the watermarks of the keys are independent. -/
theorem outputs_filter_key (key : SequenceKey) : ∀ (os : List Observation) (t t' : SequenceTracker),
    t.watermarks key = t'.watermarks key →
    (outputs SequenceTracker.after SequenceTracker.returned t os).filter (fun g => g.key = key) =
      (outputs SequenceTracker.after SequenceTracker.returned t' (os.filter (fun o => o.key = key))).filter
        (fun g => g.key = key)
  | [], _, _, _       => rfl
  | o :: os, t, t', h => by
    by_cases ho : o.key = key
    · subst ho
      obtain ⟨hret, hafter⟩ := observe_congr h
      rw [List.filter_cons_of_pos (by simp), outputs, outputs, List.filter_append, List.filter_append, hret,
        outputs_filter_key o.key os _ _ hafter]
    · rw [List.filter_cons_of_neg (by simpa using ho), outputs, List.filter_append, t.returned_other (Or.inr ho),
        List.nil_append]
      exact outputs_filter_key key os _ _ ((t.after_other (Or.inr ho)).trans h)

end Keys

theorem sequenceGaps_gaps (records : List TradeRecord) : (sequenceGaps records).gaps =
    outputs SequenceTracker.after SequenceTracker.returned SequenceTracker.new (observations records) :=
  (GapReplay.found_foldl records GapReplay.new).trans (List.nil_append _)

theorem sequenceGaps_checked (records : List TradeRecord) :
    (sequenceGaps records).checked = records.countP TradeRecord.checkable :=
  (GapReplay.checked_foldl records GapReplay.new).trans (Nat.zero_add _)

theorem sequenceGaps_skippedVenues (records : List TradeRecord) :
    (sequenceGaps records).skippedVenues = (skippedVenuesOf records).sort := by
  have h := GapReplay.skipped_foldl records GapReplay.new
  rw [GapReplay.new, Finset.empty_union] at h
  unfold sequenceGaps
  rw [← h]
  rfl

theorem observations_filter_key (key : SequenceKey) (records : List TradeRecord) :
    (observations records).filter (fun o => o.key = key) = observations (records.filter (fun r => r.key = key)) := by
  unfold observations
  rw [List.filter_map, List.filter_filter, List.filter_filter]
  refine congrArg _ (List.filter_congr (fun r _ => ?_))
  exact Bool.and_comm _ _

/-- **The gaps of a key are those of its own records.** -/
theorem sequenceGaps_filter_key (key : SequenceKey) (records : List TradeRecord) :
    (sequenceGaps records).gaps.filter (fun g => g.key = key) =
      (sequenceGaps (records.filter (fun r => r.key = key))).gaps.filter (fun g => g.key = key) := by
  rw [sequenceGaps_gaps, sequenceGaps_gaps, ← observations_filter_key, outputs_filter_key key _ _ _ rfl]

/-- **Records of a connection-scoped venue, or without a sequence, change no gap.** -/
theorem sequenceGaps_filter_checkable (records : List TradeRecord) :
    (sequenceGaps (records.filter TradeRecord.checkable)).gaps = (sequenceGaps records).gaps := by
  rw [sequenceGaps_gaps, sequenceGaps_gaps, observations, observations, List.filter_filter]
  simp only [Bool.and_self]

/-- Gaps that agree on every key are the same gaps, in some order. -/
theorem perm_of_filter_key {gaps gaps' : List Gap}
    (h : ∀ key, gaps.filter (fun g => g.key = key) = gaps'.filter (fun g => g.key = key)) : gaps.Perm gaps' := by
  rw [List.perm_iff_count]
  intro g
  have hcount : ∀ l : List Gap, (l.filter (fun x => x.key = g.key)).count g = l.count g := fun l =>
    List.count_filter (by simp)
  rw [← hcount gaps, h g.key, hcount gaps']

def TradeRecord.ofTrade (t : Trade) : TradeRecord :=
  { venue := t.venue, venueSymbol := t.venueSymbol, sequence := t.sequence }

/-- **Trades partitioned by `kafka_key`** leave no `(venue, venue_symbol)` in two partitions, whatever the partitioner. -/
theorem keysApart_of_kafkaKey (partitionOf : String → Nat) (parts : List (List Trade))
    (h : ∀ (i : Nat) (hi : i < parts.length), ∀ t ∈ parts[i], partitionOf t.kafkaKey = i) :
    KeysApart TradeRecord.key (parts.map (List.map TradeRecord.ofTrade)) := by
  unfold KeysApart
  rw [List.pairwise_map, List.pairwise_iff_getElem]
  intro i j hi hj hij r hr q hq hkey
  obtain ⟨t, ht, rfl⟩ := List.mem_map.1 hr
  obtain ⟨u, hu, rfl⟩ := List.mem_map.1 hq
  have hsame : t.kafkaKey = u.kafkaKey := by
    simp only [TradeRecord.key, TradeRecord.ofTrade, Prod.mk.injEq] at hkey
    rw [Trade.kafkaKey, Trade.kafkaKey, hkey.1, hkey.2]
  have hindex : i = j := (h i hi t ht).symm.trans ((congrArg partitionOf hsame).trans (h j hj u hu))
  exact absurd hindex (Nat.ne_of_lt hij)

/-- **The report does not depend on how the partitions interleave.** -/
theorem sequenceGaps_merges {parts : List (List TradeRecord)} (hkeys : KeysApart TradeRecord.key parts)
    {records records' : List TradeRecord} (h : Merge parts records) (h' : Merge parts records') :
    (sequenceGaps records).checked = (sequenceGaps records').checked ∧
    (sequenceGaps records).skippedVenues = (sequenceGaps records').skippedVenues ∧
    (sequenceGaps records).missing = (sequenceGaps records').missing ∧
    (∀ key : SequenceKey, (sequenceGaps records).gaps.filter (fun g => g.key = key) =
      (sequenceGaps records').gaps.filter (fun g => g.key = key)) ∧
    ∀ rs : List TradeRecord, (sequenceGaps (rs.filter TradeRecord.checkable)).gaps = (sequenceGaps rs).gaps := by
  have hperm : records.Perm records' := h.perm_merge h'
  have hgaps : ∀ key : SequenceKey, (sequenceGaps records).gaps.filter (fun g => g.key = key) =
      (sequenceGaps records').gaps.filter (fun g => g.key = key) := by
    intro key
    rw [sequenceGaps_filter_key key records, sequenceGaps_filter_key key records', hkeys.filter_key h h' key]
  refine ⟨?_, ?_, ?_, hgaps, sequenceGaps_filter_checkable⟩
  · rw [sequenceGaps_checked, sequenceGaps_checked, hperm.countP_eq]
  · have hskipped : skippedVenuesOf records = skippedVenuesOf records' :=
      List.toFinset_eq_of_perm _ _ ((hperm.map TradeRecord.venue).filter _)
    rw [sequenceGaps_skippedVenues, sequenceGaps_skippedVenues, hskipped]
  · exact ((perm_of_filter_key hgaps).map Gap.missingCount).sum_eq

/-- Two symbols on two partitions, read in two orders. -/
theorem sequenceGaps_merges_two :
    (sequenceGaps [⟨"binance", "BTCUSDT", some 1⟩, ⟨"binance", "ETHUSDT", some 900⟩,
        ⟨"binance", "BTCUSDT", some 5⟩]).missing =
      (sequenceGaps [⟨"binance", "ETHUSDT", some 900⟩, ⟨"binance", "BTCUSDT", some 1⟩,
        ⟨"binance", "BTCUSDT", some 5⟩]).missing := by
  let trade : String → Int → Trade := fun venueSymbol id =>
    { venue := "binance", venueSymbol, instrumentId := "", tradeId := toString id, eventTsUs := 0, ingestTsUs := 0
      price := "1", size := "1", side := .buy, sequence := some id, isBackfill := false, source := .stream }
  let btc : Int → TradeRecord := fun id => .ofTrade (trade "BTCUSDT" id)
  let eth : TradeRecord := .ofTrade (trade "ETHUSDT" 900)
  have hkeys : KeysApart TradeRecord.key [[btc 1, btc 5], [eth]] :=
    keysApart_of_kafkaKey (fun key => if key = "binance|BTCUSDT" then 0 else 1)
      [[trade "BTCUSDT" 1, trade "BTCUSDT" 5], [trade "ETHUSDT" 900]] (by decide)
  have hnil : Merge [[], []] ([] : List TradeRecord) := .nil (by simp)
  have hlast : Merge [[btc 5], []] [btc 5] := @Merge.next _ [] (btc 5) [] [[]] _ hnil
  have hmerge : Merge [[btc 1, btc 5], [eth]] [btc 1, eth, btc 5] :=
    @Merge.next _ [] (btc 1) [btc 5] [[eth]] _ (@Merge.next _ [[btc 5]] eth [] [] _ hlast)
  have hmerge' : Merge [[btc 1, btc 5], [eth]] [eth, btc 1, btc 5] :=
    @Merge.next _ [[btc 1, btc 5]] eth [] [] _ (@Merge.next _ [] (btc 1) [btc 5] [[]] _ hlast)
  exact (sequenceGaps_merges hkeys hmerge hmerge').2.2.1

end Devlab
