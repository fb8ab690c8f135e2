import RealtimeFinance.Awsnative.WireFormat
import RealtimeFinance.Backfill.Seed
import RealtimeFinance.Python.DateText
import RealtimeFinance.Python.Ordinal
/-!
# ItemsFile — the work list between `awsnative.backfill.seed` and the loader's Lambda

`to_jsonl` writes a line for each work item, and the Lambda builds its item from an event that holds one line's fields and
others beside them.  An event gives an item exactly when it says what the item's own dict says (`fromJson_eq_ok_iff`), so
the items come out of the file as they went in (`itemsFile_readBack`).  Here an item is as in the source, its day a text.
-/
namespace Backfill

open Python

def Tier.value : Tier → String
  | .deep => "DEEP"
  | .hot  => "HOT"

/-- `WorkItem`. -/
structure ItemRecord where
  tier : Tier
  venue : String
  instrumentId : String
  venueSymbol : String
  granularity : Granularity
  period : String
  dt : String
  archiveKey : String
  stagingKey : String
  deriving DecidableEq

/-- `WorkItem.to_json`. -/
def ItemRecord.toJson (item : ItemRecord) : Dict String :=
  [("tier", item.tier.value), ("venue", item.venue), ("instrument_id", item.instrumentId),
    ("venue_symbol", item.venueSymbol), ("granularity", item.granularity.text), ("period", item.period), ("dt", item.dt),
    ("archive_key", item.archiveKey), ("staging_key", item.stagingKey)]

/-- `Tier(value)`. -/
def tierOf (value : String) : Except Exception Tier :=
  if value = "DEEP" then .ok .deep
  else if value = "HOT" then .ok .hot
  else .error (.valueError ("'" ++ value ++ "' is not a valid Tier"))

/-- `Granularity(value)`. -/
def granularityOf (value : String) : Except Exception Granularity :=
  if value = "monthly" then .ok .monthly
  else if value = "daily" then .ok .daily
  else .error (.valueError ("'" ++ value ++ "' is not a valid Granularity"))

/-- `WorkItem.from_json`. -/
def ItemRecord.fromJson (payload : Dict String) : Except Exception ItemRecord := do
  let tier ← (← Dict.item payload "tier") |> tierOf
  let venue ← Dict.item payload "venue"
  let instrumentId ← Dict.item payload "instrument_id"
  let venueSymbol ← Dict.item payload "venue_symbol"
  let granularity ← (← Dict.item payload "granularity") |> granularityOf
  let period ← Dict.item payload "period"
  let dt ← Dict.item payload "dt"
  let archiveKey ← Dict.item payload "archive_key"
  let stagingKey ← Dict.item payload "staging_key"
  return { tier, venue, instrumentId, venueSymbol, granularity, period, dt, archiveKey, stagingKey }

/-- `to_jsonl`. -/
def toJsonl (items : List ItemRecord) : List Char := Awsnative.jsonLines (items.map ItemRecord.toJson)

theorem tierOf_eq_ok_iff {value : String} {tier : Tier} : tierOf value = .ok tier ↔ value = tier.value := by
  unfold tierOf
  by_cases hdeep : value = "DEEP"
  · rw [if_pos hdeep, hdeep]
    cases tier <;> decide
  · rw [if_neg hdeep]
    by_cases hhot : value = "HOT"
    · rw [if_pos hhot, hhot]
      cases tier <;> decide
    · rw [if_neg hhot]
      cases tier <;> simp [Tier.value, hdeep, hhot]

theorem granularityOf_eq_ok_iff {value : String} {granularity : Granularity} :
    granularityOf value = .ok granularity ↔ value = granularity.text := by
  unfold granularityOf
  by_cases hmonthly : value = "monthly"
  · rw [if_pos hmonthly, hmonthly]
    cases granularity <;> decide
  · rw [if_neg hmonthly]
    by_cases hdaily : value = "daily"
    · rw [if_pos hdaily, hdaily]
      cases granularity <;> decide
    · rw [if_neg hdaily]
      cases granularity <;> simp [Granularity.text, hmonthly, hdaily]

/-- **An event gives an item exactly when** it says what the item's dict says; what it says beside that does not matter. -/
theorem ItemRecord.fromJson_eq_ok_iff {payload : Dict String} {item : ItemRecord} :
    ItemRecord.fromJson payload = .ok item ↔ ∀ field ∈ item.toJson, Dict.get? payload field.1 = some field.2 := by
  have hitem : ∀ {key : String} {value : String}, Dict.item payload key = .ok value ↔ Dict.get? payload key = some value :=
    Dict.item_eq_ok_iff
  simp only [ItemRecord.toJson, List.forall_mem_cons, List.not_mem_nil, false_imp_iff, implies_true, and_true]
  constructor
  · intro h
    obtain ⟨tierText, htier, h⟩ := Sql.bind_ok h
    obtain ⟨tier, htierOf, h⟩ := Sql.bind_ok h
    obtain ⟨venue, hvenue, h⟩ := Sql.bind_ok h
    obtain ⟨instrumentId, hid, h⟩ := Sql.bind_ok h
    obtain ⟨venueSymbol, hsymbol, h⟩ := Sql.bind_ok h
    obtain ⟨granularityText, hgranularity, h⟩ := Sql.bind_ok h
    obtain ⟨granularity, hgranularityOf, h⟩ := Sql.bind_ok h
    obtain ⟨period, hperiod, h⟩ := Sql.bind_ok h
    obtain ⟨dt, hdt, h⟩ := Sql.bind_ok h
    obtain ⟨archiveKey, harchive, h⟩ := Sql.bind_ok h
    obtain ⟨stagingKey, hstaging, h⟩ := Sql.bind_ok h
    cases h
    rw [tierOf_eq_ok_iff] at htierOf
    rw [granularityOf_eq_ok_iff] at hgranularityOf
    subst htierOf hgranularityOf
    exact ⟨hitem.1 htier, hitem.1 hvenue, hitem.1 hid, hitem.1 hsymbol, hitem.1 hgranularity, hitem.1 hperiod, hitem.1 hdt,
      hitem.1 harchive, hitem.1 hstaging⟩
  · rintro ⟨htier, hvenue, hid, hsymbol, hgranularity, hperiod, hdt, harchive, hstaging⟩
    unfold ItemRecord.fromJson
    rw [hitem.2 htier, hitem.2 hvenue, hitem.2 hid, hitem.2 hsymbol, hitem.2 hgranularity, hitem.2 hperiod, hitem.2 hdt,
      hitem.2 harchive, hitem.2 hstaging]
    show (tierOf item.tier.value >>= fun _ => _) = _
    rw [tierOf_eq_ok_iff.2 rfl]
    show (granularityOf item.granularity.text >>= fun _ => _) = _
    rw [granularityOf_eq_ok_iff.2 rfl]
    rfl

/-! ## The file -/

/-- What the Lambda is sent for a line. -/
def loadEvent (bucket : String) (line : Dict String) : Dict String := ("action", "load") :: ("bucket", bucket) :: line

theorem get?_loadEvent {key : String} (hkey : key ≠ "action" ∧ key ≠ "bucket") (bucket : String) (line : Dict String) :
    Dict.get? (loadEvent bucket line) key = Dict.get? line key := by
  rw [loadEvent, Dict.get?, Dict.get?, if_neg (Ne.symm hkey.1), if_neg (Ne.symm hkey.2), Option.or_none, Option.or_none]

theorem fromJson_loadEvent (bucket : String) (item : ItemRecord) :
    ItemRecord.fromJson (loadEvent bucket item.toJson) = .ok item := by
  rw [ItemRecord.fromJson_eq_ok_iff]
  simp only [ItemRecord.toJson, List.forall_mem_cons, List.not_mem_nil, false_imp_iff, implies_true, and_true]
  refine ⟨?_, ?_, ?_, ?_, ?_, ?_, ?_, ?_, ?_⟩ <;> (rw [get?_loadEvent (by decide)]; rfl)

/-- `date.fromordinal`. -/
def dateOf (ordinal : Int) : Option Date := (Date.ofParts 1 1 1).bind (fun first => first.addDays (ordinal.toNat - 1))

/-- A planned item, its day as `plan` writes it. -/
def WorkItem.record (item : WorkItem) : ItemRecord :=
  { tier := item.tier, venue := item.venue, instrumentId := item.instrumentId, venueSymbol := item.venueSymbol
    granularity := item.granularity, period := item.period, dt := ((dateOf item.dt).map Date.dayText).getD ""
    archiveKey := item.archiveKey, stagingKey := item.stagingKey }

theorem dateOf_toOrdinal (d : Date) : dateOf d.toOrdinal = some d := by
  have hpos : 1 ≤ d.toOrdinal := Nat.le_trans d.day_pos (Nat.le_add_left _ _)
  have hlast : d.toOrdinal ≤ Date.maxOrdinal :=
    Nat.le_trans d.toOrdinal_le_year (daysBeforeYear_mono (Nat.succ_pos _) (Nat.succ_le_succ d.year_le))
  have hparts : (Date.ofParts 1 1 1).map Date.toOrdinal = some 1 := by decide
  obtain ⟨first, hfirst, hone⟩ := Option.map_eq_some_iff.1 hparts
  have hsum : first.toOrdinal + (d.toOrdinal - 1) = d.toOrdinal := by omega
  obtain ⟨day, hday⟩ := Date.addDays_isSome (n := d.toOrdinal - 1) (hsum.symm ▸ hlast)
  have hsame : day = d := Date.toOrdinal_injective ((Date.toOrdinal_addDays hday).trans hsum)
  rw [dateOf, hfirst, Option.bind_some, Int.toNat_natCast, hday, hsame]

/-- Items whose days are dates are told apart by what is written of them. -/
theorem WorkItem.record_injective {a b : WorkItem} (ha : ∃ d : Date, a.dt = d.toOrdinal) (hb : ∃ d : Date, b.dt = d.toOrdinal)
    (h : a.record = b.record) : a = b := by
  obtain ⟨d, hd⟩ := ha
  obtain ⟨e, he⟩ := hb
  obtain ⟨tier, venue, instrumentId, venueSymbol, granularity, period, dt, archiveKey, stagingKey⟩ := a
  obtain ⟨tier', venue', instrumentId', venueSymbol', granularity', period', dt', archiveKey', stagingKey'⟩ := b
  obtain rfl : dt = d.toOrdinal := hd
  obtain rfl : dt' = e.toOrdinal := he
  simp only [WorkItem.record, ItemRecord.mk.injEq, dateOf_toOrdinal, Option.map_some, Option.getD_some] at h
  obtain ⟨rfl, rfl, rfl, rfl, rfl, rfl, hday, rfl, rfl⟩ := h
  rw [Date.dayText_injective (congrArg String.toList hday)]

/-- The items that the Lambda builds from the lines of a file. -/
def readItems (bucket : String) (cs : List Char) : Option (List (Except Exception ItemRecord)) :=
  (Awsnative.readLines cs).map (fun lines => lines.map (fun line => ItemRecord.fromJson (loadEvent bucket line)))

theorem readItems_toJsonl (bucket : String) (items : List ItemRecord) :
    readItems bucket (toJsonl items) = some (items.map Except.ok) := by
  unfold readItems toJsonl
  rw [Awsnative.readLines_jsonLines, Option.map_some, List.map_map]
  exact congrArg some (List.map_congr_left (fun item _ => fromJson_loadEvent bucket item))

/-- **The work list comes out of its file as it was planned**: an item for each line, in order, whatever the texts; and two
plans whose days are dates are the same where their files are. -/
theorem itemsFile_readBack (bucket : String) :
    (∀ items, readItems bucket (toJsonl items) = some (items.map Except.ok)) ∧
    (∀ payload item, ItemRecord.fromJson payload = .ok item ↔
      ∀ field ∈ item.toJson, Dict.get? payload field.1 = some field.2) ∧
    ∀ plan plan' : List WorkItem, (∀ item ∈ plan ++ plan', ∃ d : Date, item.dt = d.toOrdinal) →
      toJsonl (plan.map WorkItem.record) = toJsonl (plan'.map WorkItem.record) → plan = plan' := by
  refine ⟨readItems_toJsonl bucket, fun _ _ => ItemRecord.fromJson_eq_ok_iff, fun plan plan' hdays h => ?_⟩
  have hread := readItems_toJsonl bucket (plan.map WorkItem.record)
  rw [h, readItems_toJsonl bucket, Option.some.injEq] at hread
  have hrecords : plan'.map WorkItem.record = plan.map WorkItem.record :=
    (List.map_injective_iff.2 (fun _ _ heq => Except.ok.inj heq)) hread
  clear h hread
  induction plan generalizing plan' with
  | nil =>
    rw [List.map_nil, List.map_eq_nil_iff] at hrecords
    exact hrecords.symm
  | cons item plan ih =>
    cases plan' with
    | nil => cases hrecords
    | cons item' plan' =>
      rw [List.map_cons, List.map_cons, List.cons.injEq] at hrecords
      have hsame : item = item' := WorkItem.record_injective (hdays item (by simp)) (hdays item' (by simp)) hrecords.1.symm
      rw [hsame, ih plan' (fun x hx => hdays x (by
        rcases List.mem_append.1 hx with hx | hx
        · exact List.mem_append_left _ (List.mem_cons_of_mem _ hx)
        · exact List.mem_append_right _ (List.mem_cons_of_mem _ hx))) hrecords.2]

/-- Files of the calendar's first two days. -/
def firstFiles : List ArchiveFile :=
  [{ tier := .hot, instrumentId := "BTC-USD", venueSymbol := "BTCUSDT", granularity := .daily, period := "0001-01-01"
     dt := 1 },
   { tier := .hot, instrumentId := "BTC-USD", venueSymbol := "BTCUSDT", granularity := .daily, period := "0001-01-02"
     dt := 2 }]

/-- A run that skips the second file, done, has the items of a run that never had it. -/
theorem itemsFile_readBack_firstFiles :
    plan firstFiles (firstFiles.tail.map ArchiveFile.key) = plan (firstFiles.take 1) [] ∧
    toJsonl ((plan firstFiles []).map WorkItem.record) ≠ toJsonl ((plan firstFiles.reverse []).map WorkItem.record) := by
  have hdate : ∀ day, (Date.ofParts 1 1 day).map Date.toOrdinal = some day → ∃ d : Date, (day : Int) = d.toOrdinal := by
    intro day hparts
    obtain ⟨d, -, hd⟩ := Option.map_eq_some_iff.1 hparts
    exact ⟨d, by rw [hd]⟩
  have hdates : ∀ item ∈ plan firstFiles [], ∃ d : Date, item.dt = d.toOrdinal :=
    List.forall_mem_cons.2 ⟨hdate 1 (by decide), List.forall_mem_singleton.2 (hdate 2 (by decide))⟩
  obtain ⟨-, -, hplans⟩ := itemsFile_readBack "lake"
  refine ⟨hplans _ _ (fun item hitem => hdates item ?_) (by decide +kernel), fun hfile => ?_⟩
  · revert item
    decide +kernel
  · have hsame := hplans _ _ (fun item hitem => hdates item ?_) hfile
    · exact absurd hsame (by decide +kernel)
    · revert item
      decide +kernel

end Backfill
