import RealtimeFinance.Awsnative.PerpPoll
import RealtimeFinance.Sql.Merge
/-!
# PerpRows — the rows that a poll writes

A row carries the text of what the answers of its symbol hold, and the empty text where they hold nothing.  It is not
built at all, and with it no other, when an instant is not a number or a reading lacks a field (`Buildable`).
-/
namespace Awsnative

open Sql Python

/-! ## What the venue says -/

/-- Missing, null or empty. -/
def Absent (v : Option Json) : Prop := v = none ∨ v = some .null ∨ v = some (.str "")

/-- An instant in milliseconds. -/
def SuppliesInstant (v : Option Json) (millis : Int) : Prop := ∃ value, v = some value ∧ value.toInt = .ok millis

def valueText (v : Option Json) : String :=
  match v with
  | some value => value.text
  | none       => ""

theorem fieldText_eq (d : JsonObject) (field : String) : fieldText d field = valueText (Dict.get? d field) := rfl

theorem SuppliesInstant.not_absent {v : Option Json} {millis : Int} (h : SuppliesInstant v millis) : ¬ Absent v := by
  obtain ⟨value, rfl, hint⟩ := h
  rintro (h | h | h)
  · cases h
  · cases h
    cases hint
  · cases h
    cases hint

/-- **An instant becomes microseconds, and no instant becomes 0.** -/
theorem millisToMicros_ok {v : Option Json} {us : Int} (h : millisToMicros v = .ok us) :
    (Absent v ∧ us = 0) ∨ ∃ millis, SuppliesInstant v millis ∧ us = millis * 1000 := by
  unfold millisToMicros at h
  split at h
  · exact Or.inl ⟨Or.inl rfl, (Except.ok.inj h).symm⟩
  · exact Or.inl ⟨Or.inr (Or.inl rfl), (Except.ok.inj h).symm⟩
  · exact Or.inl ⟨Or.inr (Or.inr rfl), (Except.ok.inj h).symm⟩
  · rename_i value _ _
    cases hint : value.toInt with
    | error e => rw [hint] at h; cases h
    | ok millis =>
      rw [hint] at h
      cases h
      exact Or.inr ⟨millis, ⟨value, rfl, hint⟩, rfl⟩

theorem millisToMicros_absent {v : Option Json} (h : Absent v) : millisToMicros v = .ok 0 := by
  rcases h with rfl | rfl | rfl <;> rfl

theorem SuppliesInstant.millisToMicros {v : Option Json} {millis : Int} (h : SuppliesInstant v millis) :
    millisToMicros v = .ok (millis * 1000) := by
  have hnot := h.not_absent
  obtain ⟨value, rfl, hint⟩ := h
  unfold Awsnative.millisToMicros
  split
  · rename_i hv
    cases hv
  · rename_i hv
    exact absurd (Or.inr (Or.inl hv)) hnot
  · rename_i hv
    exact absurd (Or.inr (Or.inr hv)) hnot
  · rename_i value' _ _ hv
    cases hv
    rw [hint]
    rfl

theorem millisToMicros_isOk_iff {v : Option Json} :
    (∃ us, millisToMicros v = .ok us) ↔ Absent v ∨ ∃ millis, SuppliesInstant v millis := by
  constructor
  · rintro ⟨us, h⟩
    rcases millisToMicros_ok h with ⟨habsent, -⟩ | ⟨millis, hmillis, -⟩
    · exact Or.inl habsent
    · exact Or.inr ⟨millis, hmillis⟩
  · rintro (habsent | ⟨millis, hmillis⟩)
    · exact ⟨0, millisToMicros_absent habsent⟩
    · exact ⟨_, hmillis.millisToMicros⟩

/-! ## The answers of a poll -/

/-- The answer, when there was one. -/
def Fetched.payload? {α : Type} : Fetched α → Option α
  | .answered payload => some payload
  | _                 => none

/-- The last object of that symbol. -/
def lastOfSymbol (payload : List JsonObject) (symbol : String) : Option JsonObject :=
  (payload.filter (fun o => decide ((Dict.get? o "symbol").map Json.text = some symbol))).getLast?

def PerpPoll.premiumPayload (poll : PerpPoll) : List JsonObject := poll.premiumIndex.payload?.getD []

def PerpPoll.premiumOf (poll : PerpPoll) (symbol : String) : Option JsonObject :=
  lastOfSymbol poll.premiumPayload symbol

/-- The pairs that `premiumIndex` answered for, each with its object. -/
def PerpPoll.answered (poll : PerpPoll) : List ((String × String) × JsonObject) :=
  poll.pairs.filterMap (fun pair => (poll.premiumOf pair.2).map (fun premium => (pair, premium)))

/-- The rounds under a symbol, of which the loop keeps the last. -/
def PerpPoll.roundsOf (poll : PerpPoll) (symbol : String) : List PairPoll :=
  poll.rounds.filter (fun round => decide (round.venueSymbol = symbol))

/-- The symbol's open interest: the last that was answered. -/
def PerpPoll.interestOf (poll : PerpPoll) (symbol : String) : Option JsonObject :=
  ((poll.roundsOf symbol).filterMap (fun round => round.openInterest.payload?)).getLast?

def PerpPoll.interestField (poll : PerpPoll) (symbol field : String) : Option Json :=
  (poll.interestOf symbol).bind (fun interest => Dict.get? interest field)

/-- The most recent reading of a family. -/
def PairPoll.reading (round : PairPoll) (family : RatioFamily) : Option JsonObject :=
  (round.ratio family).payload?.bind List.getLast?

/-- The symbol's reading: that of its last round, answered or not. -/
def PerpPoll.reading (poll : PerpPoll) (family : RatioFamily) (symbol : String) : Option JsonObject :=
  (poll.roundsOf symbol).getLast?.bind (fun round => round.reading family)

def PerpPoll.readingField (poll : PerpPoll) (family : RatioFamily) (symbol field : String) : Option Json :=
  (poll.reading family symbol).bind (fun reading => Dict.get? reading field)

/-- No request of the round raises anything but that its endpoint is unavailable. -/
structure PairPoll.Quiet (round : PairPoll) : Prop where
  openInterest : ∀ e, round.openInterest ≠ .raised e
  ratio : ∀ family e, round.ratio family ≠ .raised e

theorem Fetched.json_eq_ok_iff {α : Type} {x : Fetched α} {r : Option α} :
    x.json = .ok r ↔ (∀ e, x ≠ .raised e) ∧ r = x.payload? := by
  cases x with
  | answered payload => simp [Fetched.json, Fetched.payload?, eq_comm]
  | unavailable => simp [Fetched.json, Fetched.payload?, eq_comm]
  | raised e => simp [Fetched.json]

/-! ## What the loop of `collect` gathers -/

def PairPoll.gathered (round : PairPoll) : String × Option JsonObject × Families (Option (List JsonObject)) :=
  let readings (family : RatioFamily) := (round.ratio family).payload?.filter (fun p => !p.isEmpty)
  (round.venueSymbol, round.openInterest.payload?,
    { toptraderAccounts := readings .toptraderAccounts, toptraderPositions := readings .toptraderPositions
      globalAccounts := readings .globalAccounts, takerVolume := readings .takerVolume })

theorem PairPoll.gather_eq_ok_iff {round : PairPoll}
    {g : String × Option JsonObject × Families (Option (List JsonObject))} :
    round.gather = .ok g ↔ round.Quiet ∧ g = round.gathered := by
  constructor
  · intro h
    obtain ⟨interest, hinterest, h⟩ := bind_ok h
    obtain ⟨families, hfamilies, h⟩ := bind_ok h
    obtain ⟨hquiet, rfl⟩ := Fetched.json_eq_ok_iff.1 hinterest
    have hratio := fun family => Fetched.json_eq_ok_iff.1 (Families.build_eq_ok_iff.1 hfamilies family)
    cases h
    refine ⟨⟨hquiet, fun family => (hratio family).1⟩, ?_⟩
    unfold PairPoll.gathered
    simp only [← (hratio _).2, Families.get]
  · rintro ⟨hquiet, rfl⟩
    have hfamilies : Families.build (fun family => (round.ratio family).json) =
        .ok { toptraderAccounts := (round.ratio .toptraderAccounts).payload?
              toptraderPositions := (round.ratio .toptraderPositions).payload?
              globalAccounts := (round.ratio .globalAccounts).payload?
              takerVolume := (round.ratio .takerVolume).payload? } := by
      rw [Families.build_eq_ok_iff]
      intro family
      rw [Fetched.json_eq_ok_iff]
      exact ⟨hquiet.ratio family, by cases family <;> rfl⟩
    unfold PairPoll.gather
    rw [Fetched.json_eq_ok_iff.2 ⟨hquiet.openInterest, rfl⟩, hfamilies]
    rfl

theorem PairPoll.gathered_reading (round : PairPoll) (family : RatioFamily) :
    ((round.gathered.2.2.get family).getD []).getLast? = round.reading family := by
  have hreadings : round.gathered.2.2.get family = (round.ratio family).payload?.filter (fun p => !p.isEmpty) := by
    cases family <;> rfl
  unfold PairPoll.reading
  rw [hreadings]
  cases (round.ratio family).payload? with
  | none => rfl
  | some readings => cases readings <;> rfl

/-- **What the rounds gather, when no request raises.** -/
theorem PerpPoll.mapM_gather_eq_ok_iff {poll : PerpPoll}
    {gs : List (String × Option JsonObject × Families (Option (List JsonObject)))} :
    poll.rounds.mapM PairPoll.gather = .ok gs ↔
      (∀ round ∈ poll.rounds, round.Quiet) ∧ gs = poll.rounds.map PairPoll.gathered :=
  mapM_eq_ok_iff (fun _ _ => PairPoll.gather_eq_ok_iff)

/-- The two dicts that `collect` passes on. -/
theorem PerpPoll.get?_openInterest (poll : PerpPoll) (symbol : String) :
    Dict.get? ((poll.rounds.map PairPoll.gathered).filterMap (fun g => g.2.1.map (fun interest => (g.1, interest)))) symbol =
      poll.interestOf symbol := by
  rw [List.filterMap_map]
  exact Dict.get?_filterMap PairPoll.venueSymbol (fun round => round.openInterest.payload?) symbol poll.rounds

theorem PerpPoll.get?_ratios (poll : PerpPoll) (symbol : String) :
    Dict.get? ((poll.rounds.map PairPoll.gathered).map (fun g => (g.1, g.2.2))) symbol =
      (poll.roundsOf symbol).getLast?.map (fun round => round.gathered.2.2) := by
  rw [List.map_map, ← List.filterMap_eq_map, ← List.getLast?_map, ← List.filterMap_eq_map]
  exact Dict.get?_filterMap PairPoll.venueSymbol (fun round => some round.gathered.2.2) symbol poll.rounds

/-! ## What `premiumIndex` is indexed by -/

theorem lastOfSymbol_cons (o : JsonObject) (payload : List JsonObject) (symbol : String) :
    lastOfSymbol (o :: payload) symbol =
      (lastOfSymbol payload symbol).or (if (Dict.get? o "symbol").map Json.text = some symbol then some o else none) := by
  unfold lastOfSymbol
  rw [List.filter_cons]
  by_cases hsymbol : (Dict.get? o "symbol").map Json.text = some symbol
  · rw [if_pos (decide_eq_true hsymbol), if_pos hsymbol, List.getLast?_cons]
    cases (payload.filter _).getLast? <;> rfl
  · rw [if_neg (by simpa using hsymbol), if_neg hsymbol]
    cases (payload.filter _).getLast? <;> rfl

theorem keyBySymbol_eq_ok_iff {row : JsonObject} {item : String × JsonObject} :
    keyBySymbol row = .ok item ↔ ∃ value, Dict.get? row "symbol" = some value ∧ item = (value.text, row) := by
  constructor
  · intro h
    obtain ⟨value, hvalue, h⟩ := bind_ok h
    cases h
    exact ⟨value, Dict.item_eq_ok_iff.1 hvalue, rfl⟩
  · rintro ⟨value, hvalue, rfl⟩
    unfold keyBySymbol
    rw [Dict.item_eq_ok_iff.2 hvalue]
    rfl

/-- **An index has of every wanted symbol its last object**, and needs a symbol of every object. -/
theorem indexBySymbol_ok {wanted : List String} : ∀ {payload : List JsonObject} {indexed : Dict JsonObject},
    indexBySymbol payload wanted = .ok indexed → (∀ o ∈ payload, (Dict.get? o "symbol").isSome = true) ∧
      ∀ symbol ∈ wanted, Dict.get? indexed symbol = lastOfSymbol payload symbol
  | [], indexed, h => by
    cases h
    exact ⟨by simp, fun symbol _ => rfl⟩
  | o :: payload, indexed, h => by
    obtain ⟨keyed, hkeyed, h⟩ := bind_ok h
    rw [List.mapM_cons] at hkeyed
    obtain ⟨item, hitem, hkeyed⟩ := bind_ok hkeyed
    obtain ⟨rest, hrest, hkeyed⟩ := bind_ok hkeyed
    obtain ⟨value, hvalue, rfl⟩ := keyBySymbol_eq_ok_iff.1 hitem
    cases hkeyed
    cases h
    have htail : indexBySymbol payload wanted = .ok (rest.filter (fun item => wanted.contains item.1)) := by
      unfold indexBySymbol
      rw [hrest]
      rfl
    obtain ⟨hsymbols, hget⟩ := indexBySymbol_ok htail
    refine ⟨fun x hx => ?_, fun symbol hsymbol => ?_⟩
    · rcases List.mem_cons.1 hx with rfl | hx
      · rw [hvalue]
        rfl
      · exact hsymbols x hx
    · rw [lastOfSymbol_cons, ← hget symbol hsymbol, List.filter_cons, hvalue]
      simp only [Option.map_some, Option.some.injEq]
      by_cases hsame : value.text = symbol
      · rw [if_pos (by simpa [hsame] using hsymbol), Dict.get?, if_pos hsame]
      · rw [if_neg hsame, Option.or_none]
        split
        · rw [Dict.get?, if_neg hsame, Option.or_none]
        · rfl

theorem indexBySymbol_isOk_iff {payload : List JsonObject} {wanted : List String} :
    (∃ indexed, indexBySymbol payload wanted = .ok indexed) ↔ ∀ o ∈ payload, (Dict.get? o "symbol").isSome = true := by
  constructor
  · rintro ⟨indexed, h⟩
    exact (indexBySymbol_ok h).1
  · intro h
    obtain ⟨keyed, hkeyed⟩ := mapM_total (f := keyBySymbol) (fun o ho => by
      obtain ⟨value, hvalue⟩ := Option.isSome_iff_exists.1 (h o ho)
      exact ⟨_, keyBySymbol_eq_ok_iff.2 ⟨value, hvalue, rfl⟩⟩)
    refine ⟨keyed.filter (fun item => wanted.contains item.1), ?_⟩
    unfold indexBySymbol
    rw [hkeyed]
    rfl

/-! ## When a row is built -/

/-- What `from_payload` needs of a reading. -/
structure Complete (family : RatioFamily) (reading : JsonObject) : Prop where
  ratio : (Dict.get? reading family.fields.1).isSome = true
  long : (Dict.get? reading family.fields.2.1).isSome = true
  short : (Dict.get? reading family.fields.2.2).isSome = true
  timestamp : ∃ millis, SuppliesInstant (Dict.get? reading "timestamp") millis

/-- **An observation carries the texts of its reading.** -/
theorem fromPayload_ok {family : RatioFamily} {reading : JsonObject} {obs : RatioObservation}
    (h : RatioObservation.fromPayload family reading = .ok obs) :
    Complete family reading ∧ obs.ratio = valueText (Dict.get? reading family.fields.1) ∧
      obs.longComponent = valueText (Dict.get? reading family.fields.2.1) ∧
      obs.shortComponent = valueText (Dict.get? reading family.fields.2.2) := by
  obtain ⟨ratio, hratio, h⟩ := bind_ok h
  obtain ⟨long, hlong, h⟩ := bind_ok h
  obtain ⟨short, hshort, h⟩ := bind_ok h
  obtain ⟨timestamp, htimestamp, h⟩ := bind_ok h
  obtain ⟨millis, hmillis, h⟩ := bind_ok h
  rw [Dict.item_eq_ok_iff] at hratio hlong hshort htimestamp
  cases h
  rw [hratio, hlong, hshort]
  exact ⟨⟨by rw [hratio]; rfl, by rw [hlong]; rfl, by rw [hshort]; rfl, millis, timestamp, htimestamp, hmillis⟩,
    rfl, rfl, rfl⟩

theorem Complete.fromPayload {family : RatioFamily} {reading : JsonObject} (h : Complete family reading) :
    ∃ obs, RatioObservation.fromPayload family reading = .ok obs := by
  obtain ⟨ratio, hratio⟩ := Option.isSome_iff_exists.1 h.ratio
  obtain ⟨long, hlong⟩ := Option.isSome_iff_exists.1 h.long
  obtain ⟨short, hshort⟩ := Option.isSome_iff_exists.1 h.short
  obtain ⟨millis, timestamp, htimestamp, hmillis⟩ := h.timestamp
  unfold RatioObservation.fromPayload
  rw [Dict.item_eq_ok_iff.2 hratio, Dict.item_eq_ok_iff.2 hlong, Dict.item_eq_ok_iff.2 hshort,
    Dict.item_eq_ok_iff.2 htimestamp]
  refine ⟨{ ratio := ratio.text, longComponent := long.text, shortComponent := short.text
            sourceTsUs := millis * microsPerMilli }, ?_⟩
  show (timestamp.toInt >>= fun millis => _) = _
  rw [hmillis]
  rfl

/-- What `collect` hands on of a family's readings, with `latest` to pick from them. -/
def PerpPoll.latest (poll : PerpPoll) (family : RatioFamily) (symbol : String) : Except Exception RatioObservation :=
  match poll.reading family symbol with
  | some reading => RatioObservation.fromPayload family reading
  | none         => .ok .absent

theorem PerpPoll.latest_gathered (poll : PerpPoll) (family : RatioFamily) (symbol : String) :
    Awsnative.latest family (((poll.roundsOf symbol).getLast?.map (fun round => round.gathered.2.2)).bind
      (fun families => families.get family)) = poll.latest family symbol := by
  unfold PerpPoll.latest PerpPoll.reading
  cases (poll.roundsOf symbol).getLast? with
  | none => rfl
  | some round =>
    have hreading := round.gathered_reading family
    unfold Awsnative.latest
    cases hlast : round.reading family with
    | none => simp only [Option.map_some, Option.bind_some, hreading, hlast]
    | some reading => simp only [Option.map_some, Option.bind_some, hreading, hlast]

/-- `buildRow` with the dicts that `collect` makes of the poll. -/
def PerpPoll.rowOf (poll : PerpPoll) (snapshotTsUs : Int) (pair : String × String) (premium : JsonObject) :
    Except Exception PerpContext := do
  let nextFundingTimeUs ← millisToMicros (Dict.get? premium "nextFundingTime")
  let premiumIndexTsUs ← millisToMicros (Dict.get? premium "time")
  let openInterestTsUs ← millisToMicros (poll.interestField pair.2 "time")
  let observations ← Families.build (fun family => poll.latest family pair.2)
  return { instrumentId := pair.1, venueSymbol := pair.2, pollTsUs := poll.pollTsUs, snapshotTsUs
           markPrice := fieldText premium "markPrice", indexPrice := fieldText premium "indexPrice"
           estimatedSettlePrice := fieldText premium "estimatedSettlePrice"
           lastFundingRate := fieldText premium "lastFundingRate", interestRate := fieldText premium "interestRate"
           nextFundingTimeUs, premiumIndexTsUs, openInterest := valueText (poll.interestField pair.2 "openInterest")
           openInterestTsUs, ratios := observations }

theorem PerpPoll.buildRow_eq (poll : PerpPoll) (snapshotTsUs : Int) (pair : String × String) (premium : JsonObject) :
    buildRow poll.pollTsUs snapshotTsUs
        ((poll.rounds.map PairPoll.gathered).filterMap (fun g => g.2.1.map (fun interest => (g.1, interest))))
        ((poll.rounds.map PairPoll.gathered).map (fun g => (g.1, g.2.2))) pair premium =
      poll.rowOf snapshotTsUs pair premium := by
  have hinterest : ∀ field, Dict.get? ((poll.interestOf pair.2).getD []) field = poll.interestField pair.2 field := by
    intro field
    unfold PerpPoll.interestField
    cases poll.interestOf pair.2 <;> rfl
  unfold buildRow PerpPoll.rowOf
  simp only [poll.get?_openInterest, poll.get?_ratios, poll.latest_gathered, hinterest, fieldText_eq]

/-- **The row of a pair**: where an observation was not made its texts are empty, as those of a missing field. -/
structure RowOf (poll : PerpPoll) (snapshotTsUs : Int) (pair : String × String) (premium : JsonObject)
    (row : PerpContext) : Prop where
  instrumentId : row.instrumentId = pair.1
  venueSymbol : row.venueSymbol = pair.2
  pollTsUs : row.pollTsUs = poll.pollTsUs
  snapshotTsUs : row.snapshotTsUs = snapshotTsUs
  markPrice : row.markPrice = valueText (Dict.get? premium "markPrice")
  indexPrice : row.indexPrice = valueText (Dict.get? premium "indexPrice")
  lastFundingRate : row.lastFundingRate = valueText (Dict.get? premium "lastFundingRate")
  interestRate : row.interestRate = valueText (Dict.get? premium "interestRate")
  nextFundingTimeUs : millisToMicros (Dict.get? premium "nextFundingTime") = .ok row.nextFundingTimeUs
  openInterest : row.openInterest = valueText (poll.interestField pair.2 "openInterest")
  ratio : ∀ f, (row.ratios.get f).ratio = valueText (poll.readingField f pair.2 f.fields.1)
  long : ∀ f, (row.ratios.get f).longComponent = valueText (poll.readingField f pair.2 f.fields.2.1)
  short : ∀ f, (row.ratios.get f).shortComponent = valueText (poll.readingField f pair.2 f.fields.2.2)

/-- What the loop needs of an answered pair. -/
structure Buildable (poll : PerpPoll) (pair : String × String) (premium : JsonObject) : Prop where
  nextFundingTime : Absent (Dict.get? premium "nextFundingTime") ∨
    ∃ millis, SuppliesInstant (Dict.get? premium "nextFundingTime") millis
  time : Absent (Dict.get? premium "time") ∨ ∃ millis, SuppliesInstant (Dict.get? premium "time") millis
  interestTime : Absent (poll.interestField pair.2 "time") ∨
    ∃ millis, SuppliesInstant (poll.interestField pair.2 "time") millis
  readings : ∀ f, ∀ reading ∈ poll.reading f pair.2, Complete f reading

theorem PerpPoll.rowOf_ok {poll : PerpPoll} {snapshotTsUs : Int} {pair : String × String} {premium : JsonObject}
    {row : PerpContext} (h : poll.rowOf snapshotTsUs pair premium = .ok row) :
    Buildable poll pair premium ∧ RowOf poll snapshotTsUs pair premium row := by
  obtain ⟨next, hnext, h⟩ := bind_ok h
  obtain ⟨time, htime, h⟩ := bind_ok h
  obtain ⟨interestTime, hinterestTime, h⟩ := bind_ok h
  obtain ⟨observations, hobservations, h⟩ := bind_ok h
  cases h
  have hobs : ∀ f, (∀ reading ∈ poll.reading f pair.2, Complete f reading) ∧
      (observations.get f).ratio = valueText (poll.readingField f pair.2 f.fields.1) ∧
      (observations.get f).longComponent = valueText (poll.readingField f pair.2 f.fields.2.1) ∧
      (observations.get f).shortComponent = valueText (poll.readingField f pair.2 f.fields.2.2) := by
    intro f
    have hf := Families.build_eq_ok_iff.1 hobservations f
    unfold PerpPoll.latest at hf
    unfold PerpPoll.readingField
    cases hreading : poll.reading f pair.2 with
    | none =>
      rw [hreading] at hf
      rw [← Except.ok.inj hf]
      exact ⟨fun reading hmem => by (cases hmem), rfl, rfl, rfl⟩
    | some reading =>
      rw [hreading] at hf
      obtain ⟨hcomplete, htexts⟩ := fromPayload_ok hf
      exact ⟨fun r hr => by (cases hr; exact hcomplete), htexts⟩
  exact ⟨⟨millisToMicros_isOk_iff.1 ⟨_, hnext⟩, millisToMicros_isOk_iff.1 ⟨_, htime⟩,
      millisToMicros_isOk_iff.1 ⟨_, hinterestTime⟩, fun f => (hobs f).1⟩,
    ⟨rfl, rfl, rfl, rfl, rfl, rfl, rfl, rfl, hnext, rfl, fun f => (hobs f).2.1, fun f => (hobs f).2.2.1,
      fun f => (hobs f).2.2.2⟩⟩

theorem Buildable.rowOf {poll : PerpPoll} {pair : String × String} {premium : JsonObject}
    (h : Buildable poll pair premium) (snapshotTsUs : Int) : ∃ row, poll.rowOf snapshotTsUs pair premium = .ok row := by
  obtain ⟨next, hnext⟩ := millisToMicros_isOk_iff.2 h.nextFundingTime
  obtain ⟨time, htime⟩ := millisToMicros_isOk_iff.2 h.time
  obtain ⟨interestTime, hinterestTime⟩ := millisToMicros_isOk_iff.2 h.interestTime
  have hlatest : ∀ f, ∃ obs, poll.latest f pair.2 = .ok obs := by
    intro f
    unfold PerpPoll.latest
    cases hreading : poll.reading f pair.2 with
    | none => exact ⟨.absent, rfl⟩
    | some reading => exact (h.readings f reading hreading).fromPayload
  obtain ⟨observations, hbuild⟩ := Families.build_total hlatest
  unfold PerpPoll.rowOf
  rw [hnext, htime, hinterestTime, hbuild]
  exact ⟨_, rfl⟩

/-! ## When a poll is written -/

/-- **When `collect` puts an object**: nothing raises, at any pair. -/
structure Written (poll : PerpPoll) : Prop where
  premiumIndex : ∀ e, poll.premiumIndex ≠ .raised e
  quiet : ∀ round ∈ poll.rounds, round.Quiet
  positive : 0 < poll.pollTsUs
  before : poll.pollTsUs < endOfDatetime
  symbols : ∀ o ∈ poll.premiumPayload, (Dict.get? o "symbol").isSome = true
  rows : ∀ a ∈ poll.answered, Buildable poll a.1 a.2

theorem PerpPoll.filterMap_indexed {poll : PerpPoll} {indexed : Dict JsonObject}
    (h : indexBySymbol poll.premiumPayload (poll.pairs.map Prod.snd) = .ok indexed) :
    poll.pairs.filterMap (fun pair => (Dict.get? indexed pair.2).map (fun premium => (pair, premium))) =
      poll.answered := by
  refine List.filterMap_congr (fun pair hpair => ?_)
  rw [(indexBySymbol_ok h).2 pair.2 (List.mem_map_of_mem hpair)]
  rfl

theorem PerpPoll.mem_answered {poll : PerpPoll} {a : (String × String) × JsonObject} (h : a ∈ poll.answered) :
    a.1 ∈ poll.pairs ∧ poll.premiumOf a.1.2 = some a.2 := by
  obtain ⟨pair, hpair, ha⟩ := List.mem_filterMap.1 h
  obtain ⟨premium, hpremium, rfl⟩ := Option.map_eq_some_iff.1 ha
  exact ⟨hpair, hpremium⟩

/-- **The rows of a poll**, once its requests are through. -/
theorem PerpPoll.buildRows_eq {poll : PerpPoll} {indexed : Dict JsonObject} (hpositive : 0 < poll.pollTsUs)
    (hindexed : indexBySymbol poll.premiumPayload (poll.pairs.map Prod.snd) = .ok indexed) :
    buildRows poll.pairs poll.premiumPayload
        ((poll.rounds.map PairPoll.gathered).filterMap (fun g => g.2.1.map (fun interest => (g.1, interest))))
        ((poll.rounds.map PairPoll.gathered).map (fun g => (g.1, g.2.2))) poll.pollTsUs =
      poll.answered.mapM (fun a => poll.rowOf (poll.pollTsUs - poll.pollTsUs % gridUs) a.1 a.2) := by
  unfold buildRows floorToGridUs
  rw [if_neg (by omega), hindexed]
  show List.mapM _ _ = _
  rw [PerpPoll.filterMap_indexed hindexed]
  exact mapM_congr (fun a _ => poll.buildRow_eq _ a.1 a.2)

/-- **What a poll puts.** -/
theorem PerpPoll.collect_ok {poll : PerpPoll} {object : PerpObject} (h : poll.collect = .ok object) :
    Written poll ∧ object.ingestDate = microsDate poll.pollTsUs ∧ ∃ rows : List PerpContext,
      object.lines = rows.map PerpContext.toJson ∧
      List.Forall₂ (fun a row => RowOf poll (poll.pollTsUs - poll.pollTsUs % gridUs) a.1 a.2 row) poll.answered rows := by
  obtain ⟨rows, hcollected, h⟩ := bind_ok h
  obtain ⟨ingestDate, hdate, h⟩ := bind_ok h
  cases h
  obtain ⟨premium, hpremium, hcollected⟩ := bind_ok hcollected
  obtain ⟨gathered, hgathered, hrows⟩ := bind_ok hcollected
  obtain ⟨hanswers, rfl⟩ := Fetched.json_eq_ok_iff.1 hpremium
  obtain ⟨hquiet, rfl⟩ := PerpPoll.mapM_gather_eq_ok_iff.1 hgathered
  have hbuild := hrows
  obtain ⟨snapshot, hsnapshot, hbuild⟩ := bind_ok hbuild
  obtain ⟨indexed, hindexed, -⟩ := bind_ok hbuild
  have hpositive : 0 < poll.pollTsUs := by
    unfold floorToGridUs at hsnapshot
    split at hsnapshot
    · cases hsnapshot
    · omega
  have hbefore : poll.pollTsUs < endOfDatetime ∧ ingestDate = microsDate poll.pollTsUs := by
    unfold perpKeyDate at hdate
    split at hdate
    · exact ⟨by assumption, (Except.ok.inj hdate).symm⟩
    · cases hdate
  have hmapM := (PerpPoll.buildRows_eq hpositive hindexed).symm.trans hrows
  refine ⟨⟨hanswers, hquiet, hpositive, hbefore.1, (indexBySymbol_ok hindexed).1, fun a ha => ?_⟩, hbefore.2, rows, rfl, ?_⟩
  · obtain ⟨row, -, hrow⟩ := (mapM_ok hmapM).1 a ha
    exact (PerpPoll.rowOf_ok hrow).1
  · exact (mapM_forall₂ hmapM).imp (fun a row hrow => (PerpPoll.rowOf_ok hrow).2)

/-- **What a poll puts when nothing raises**: the rows of its answered pairs. -/
theorem Written.collect_eq {poll : PerpPoll} (h : Written poll) : ∃ rows : List PerpContext,
    poll.answered.mapM (fun a => poll.rowOf (poll.pollTsUs - poll.pollTsUs % gridUs) a.1 a.2) = .ok rows ∧
      poll.rows = .ok rows ∧ poll.collect = .ok ⟨microsDate poll.pollTsUs, rows.map PerpContext.toJson⟩ := by
  obtain ⟨indexed, hindexed⟩ : ∃ indexed, indexBySymbol poll.premiumPayload (poll.pairs.map Prod.snd) = .ok indexed :=
    indexBySymbol_isOk_iff.2 h.symbols
  obtain ⟨rows, hrows⟩ := mapM_total (fun a ha => (h.rows a ha).rowOf (poll.pollTsUs - poll.pollTsUs % gridUs))
  have hbuild : poll.rows = .ok rows := by
    unfold PerpPoll.rows
    rw [Fetched.json_eq_ok_iff.2 ⟨h.premiumIndex, rfl⟩, PerpPoll.mapM_gather_eq_ok_iff.2 ⟨h.quiet, rfl⟩]
    exact (PerpPoll.buildRows_eq h.positive hindexed).trans hrows
  refine ⟨rows, hrows, hbuild, ?_⟩
  unfold PerpPoll.collect
  rw [hbuild]
  show (perpKeyDate poll.pollTsUs >>= fun ingestDate => _) = _
  unfold perpKeyDate
  rw [if_pos h.before]
  rfl

/-- **Nothing else keeps a poll from being put.** -/
theorem Written.collect {poll : PerpPoll} (h : Written poll) : ∃ object, poll.collect = .ok object := by
  obtain ⟨rows, -, -, hcollect⟩ := h.collect_eq
  exact ⟨_, hcollect⟩

end Awsnative
