import RealtimeFinance.Awsnative.PerpRows
import RealtimeFinance.Awsnative.SilverPerp
/-!
# PerpAbsence — what the venue left out of a poll, and what Silver says of it

An empty text becomes NULL, and so does the `None` of a null; a zero instant is a text like any other, and becomes 1970.
-/
namespace Awsnative

open Sql Python

def SuppliesDecimal (v : Option Json) (d : Decimal 38 18) : Prop := ∃ value, v = some value ∧ Denotes value.text d

/-- **NULL exactly when the venue did not say**, and otherwise what it said. -/
structure DecimalKept (v : Option Json) (c : Option (Decimal 38 18)) : Prop where
  null_iff : (Absent v ∨ ∃ d, SuppliesDecimal v d) → (c = none ↔ Absent v)
  exact : ∀ d, SuppliesDecimal v d → c = some d

structure InstantKept (v : Option Json) (c : Option Int) : Prop where
  null_iff : (Absent v ∨ ∃ millis, SuppliesInstant v millis) → (c = none ↔ Absent v)
  exact : ∀ millis, SuppliesInstant v millis → c = some (millis * 1000)

theorem not_denotes_empty (d : Decimal 38 18) : ¬ Denotes "" d := by
  rintro ⟨u, scale, h, -⟩
  cases h

theorem SuppliesDecimal.not_absent {v : Option Json} {d : Decimal 38 18} (h : SuppliesDecimal v d) : ¬ Absent v := by
  obtain ⟨value, rfl, hdenotes⟩ := h
  rintro (h | h | h)
  · cases h
  · cases h
    obtain ⟨u, scale, hnone, -⟩ := hdenotes
    cases hnone
  · cases h
    exact not_denotes_empty d hdenotes

/-- **The text of a value casts back to what it said.** -/
theorem decimalKept_valueText (v : Option Json) : DecimalKept v (perpDecimal (some (valueText v))) := by
  have hexact : ∀ d, SuppliesDecimal v d → perpDecimal (some (valueText v)) = some d := by
    rintro d ⟨value, rfl, hdenotes⟩
    have hne : some value.text ≠ some "" := by
      intro hempty
      rw [Option.some.inj hempty] at hdenotes
      exact not_denotes_empty d hdenotes
    show tryCastDecimal 38 18 (nullif (some value.text) "") = some d
    unfold nullif
    rw [if_neg hne]
    exact hdenotes.tryCast
  refine ⟨?_, hexact⟩
  rintro (habsent | ⟨d, hd⟩)
  · refine iff_of_true ?_ habsent
    rcases habsent with rfl | rfl | rfl
    · rfl
    · decide
    · rfl
  · refine iff_of_false ?_ hd.not_absent
    rw [hexact d hd]
    exact Option.some_ne_none d

/-! ## The line of a row -/

/-- The three columns of a family: its ratio, long and short side. -/
def SilverPerpRow.family (s : SilverPerpRow) : RatioFamily → Option (Decimal 38 18) × Option (Decimal 38 18) ×
    Option (Decimal 38 18)
  | .toptraderAccounts  => (s.toptraderRatioAccounts, s.toptraderLongAccounts, s.toptraderShortAccounts)
  | .toptraderPositions => (s.toptraderRatioPositions, s.toptraderLongPositions, s.toptraderShortPositions)
  | .globalAccounts     => (s.globalRatioAccounts, s.globalLongAccounts, s.globalShortAccounts)
  | .takerVolume        => (s.takerBuySellRatio, s.takerBuyVol, s.takerSellVol)

/-- **What the statement selects of a line**: each column under the name that `to_json` gave it. -/
structure Selected (row : PerpContext) (s : SilverPerpRow) : Prop where
  instrumentId : s.instrumentId = some row.instrumentId
  venueSymbol : s.venueSymbol = some row.venueSymbol
  markPrice : s.markPrice = perpDecimal (some row.markPrice)
  indexPrice : s.indexPrice = perpDecimal (some row.indexPrice)
  fundingRate : s.fundingRate = perpDecimal (some row.lastFundingRate)
  interestRate : s.interestRate = perpDecimal (some row.interestRate)
  nextFundingTs : s.nextFundingTs = some (timestampOf row.nextFundingTimeUs)
  openInterest : s.openInterest = perpDecimal (some row.openInterest)
  family : ∀ f, s.family f = (perpDecimal (some (row.ratios.get f).ratio),
    perpDecimal (some (row.ratios.get f).longComponent), perpDecimal (some (row.ratios.get f).shortComponent))

theorem castBigint_printed {n : Int} {m : Option Int} (h : castBigint (some (toString n)) = .ok m) :
    (-2 ^ 63 ≤ n ∧ n < 2 ^ 63) ∧ m = some n := by
  have hbounds := castBigint_toString_iff.1 ⟨m, h⟩
  rw [castBigint_toString hbounds] at h
  exact ⟨hbounds, (Except.ok.inj h).symm⟩

/-- A printed number is not the text that `NULLIF` looks for. -/
theorem nullif_toString (n : Int) : nullif (some (toString n)) "" = some (toString n) :=
  if_neg (fun h => toString_ne_empty n (Option.some.inj h))

theorem silverPerpOf_ok {row : PerpContext} {ingestDate : Int} {s : SilverPerpRow}
    (h : silverPerpOf ⟨row.toJson, ingestDate⟩ = .ok s) :
    (-2 ^ 63 ≤ row.nextFundingTimeUs ∧ row.nextFundingTimeUs < 2 ^ 63) ∧ Selected row s := by
  obtain ⟨snapshot, hsnapshot, h⟩ := bind_ok h
  obtain ⟨knowledge, hknowledge, h⟩ := bind_ok h
  obtain ⟨next, hnext, h⟩ := bind_ok h
  have hcolumn : (BronzePerpRow.mk row.toJson ingestDate).column "next_funding_time_us" =
      some (toString row.nextFundingTimeUs) := rfl
  rw [hcolumn, nullif_toString] at hnext
  obtain ⟨hbounds, rfl⟩ := castBigint_printed hnext
  cases h
  refine ⟨hbounds, ⟨rfl, rfl, rfl, rfl, rfl, rfl, rfl, rfl, fun f => ?_⟩⟩
  cases f
  · rfl
  · rfl
  · rfl
  · rfl

theorem silverPerpOf_total {row : PerpContext} (ingestDate : Int)
    (hsnapshot : -2 ^ 63 ≤ row.snapshotTsUs ∧ row.snapshotTsUs < 2 ^ 63)
    (hpoll : -2 ^ 63 ≤ row.pollTsUs ∧ row.pollTsUs < 2 ^ 63)
    (hnext : -2 ^ 63 ≤ row.nextFundingTimeUs ∧ row.nextFundingTimeUs < 2 ^ 63) :
    ∃ s, silverPerpOf ⟨row.toJson, ingestDate⟩ = .ok s := by
  have hcolumns : (BronzePerpRow.mk row.toJson ingestDate).column "snapshot_ts_us" = some (toString row.snapshotTsUs) ∧
      (BronzePerpRow.mk row.toJson ingestDate).column "poll_ts_us" = some (toString row.pollTsUs) ∧
      (BronzePerpRow.mk row.toJson ingestDate).column "next_funding_time_us" =
        some (toString row.nextFundingTimeUs) := ⟨rfl, rfl, rfl⟩
  obtain ⟨hcs, hcp, hcn⟩ := hcolumns
  unfold silverPerpOf
  rw [hcs, hcp, hcn, nullif_toString, castBigint_toString hsnapshot, castBigint_toString hpoll,
    castBigint_toString hnext]
  exact ⟨_, rfl⟩

/-! ## A poll end to end -/

/-- What the venue answers: each endpoint for a symbol alike, whichever pair asks. -/
structure PerpEndpoints where
  pairs : List (String × String)
  pollTsUs : Int
  premiumIndex : Fetched (List JsonObject)
  openInterest : String → Fetched JsonObject
  ratio : RatioFamily → String → Fetched (List JsonObject)

def PerpEndpoints.poll (endpoints : PerpEndpoints) : PerpPoll where
  rounds := endpoints.pairs.map (fun pair =>
    ⟨pair.1, pair.2, endpoints.openInterest pair.2, fun family => endpoints.ratio family pair.2⟩)
  pollTsUs := endpoints.pollTsUs
  premiumIndex := endpoints.premiumIndex

def PerpEndpoints.interestField (endpoints : PerpEndpoints) (symbol field : String) : Option Json :=
  (endpoints.openInterest symbol).payload?.bind (fun interest => Dict.get? interest field)

def PerpEndpoints.readingField (endpoints : PerpEndpoints) (family : RatioFamily) (symbol field : String) : Option Json :=
  ((endpoints.ratio family symbol).payload?.bind List.getLast?).bind (fun reading => Dict.get? reading field)

@[simp] theorem PerpEndpoints.pairs_poll (endpoints : PerpEndpoints) : endpoints.poll.pairs = endpoints.pairs := by
  unfold PerpEndpoints.poll PerpPoll.pairs
  rw [List.map_map]
  exact List.map_id _

/-- The last round of a symbol asked the symbol's endpoints. -/
theorem PerpEndpoints.last_round (endpoints : PerpEndpoints) {pair : String × String} (hpair : pair ∈ endpoints.pairs) :
    (∀ round ∈ endpoints.poll.roundsOf pair.2, round.openInterest = endpoints.openInterest pair.2 ∧
      ∀ family, round.ratio family = endpoints.ratio family pair.2) ∧ endpoints.poll.roundsOf pair.2 ≠ [] := by
  constructor
  · intro round hround
    obtain ⟨hround, hsymbol⟩ := List.mem_filter.1 hround
    obtain ⟨other, -, rfl⟩ := List.mem_map.1 hround
    have hsame : other.2 = pair.2 := of_decide_eq_true hsymbol
    rw [← hsame]
    exact ⟨rfl, fun family => rfl⟩
  · exact List.ne_nil_of_mem (List.mem_filter.2 ⟨List.mem_map_of_mem hpair, decide_eq_true rfl⟩)

theorem PerpEndpoints.interestField_poll (endpoints : PerpEndpoints) {pair : String × String}
    (hpair : pair ∈ endpoints.pairs) (field : String) :
    endpoints.poll.interestField pair.2 field = endpoints.interestField pair.2 field := by
  obtain ⟨halike, hsome⟩ := endpoints.last_round hpair
  unfold PerpPoll.interestField PerpEndpoints.interestField PerpPoll.interestOf
  rw [List.filterMap_congr (g := fun _ => (endpoints.openInterest pair.2).payload?)
    (fun round hround => by rw [(halike round hround).1])]
  cases (endpoints.openInterest pair.2).payload? with
  | none => simp
  | some interest =>
    rw [List.filterMap_eq_map', List.getLast?_map, List.getLast?_eq_some_getLast hsome]
    rfl

theorem PerpEndpoints.readingField_poll (endpoints : PerpEndpoints) {pair : String × String}
    (hpair : pair ∈ endpoints.pairs) (family : RatioFamily) (field : String) :
    endpoints.poll.readingField family pair.2 field = endpoints.readingField family pair.2 field := by
  obtain ⟨halike, hsome⟩ := endpoints.last_round hpair
  unfold PerpPoll.readingField PerpEndpoints.readingField PerpPoll.reading PairPoll.reading
  rw [List.getLast?_eq_some_getLast hsome, Option.bind_some, (halike _ (List.getLast_mem hsome)).2]

/-- **The row says of a pair what the venue said.** -/
structure RowKept (endpoints : PerpEndpoints) (pair : String × String) (premium : JsonObject) (s : SilverPerpRow) : Prop where
  instrumentId : s.instrumentId = some pair.1
  venueSymbol : s.venueSymbol = some pair.2
  markPrice : DecimalKept (Dict.get? premium "markPrice") s.markPrice
  indexPrice : DecimalKept (Dict.get? premium "indexPrice") s.indexPrice
  fundingRate : DecimalKept (Dict.get? premium "lastFundingRate") s.fundingRate
  interestRate : DecimalKept (Dict.get? premium "interestRate") s.interestRate
  nextFundingTs : InstantKept (Dict.get? premium "nextFundingTime") s.nextFundingTs
  openInterest : DecimalKept (endpoints.interestField pair.2 "openInterest") s.openInterest
  ratio : ∀ f, DecimalKept (endpoints.readingField f pair.2 f.fields.1) (s.family f).1
  long : ∀ f, DecimalKept (endpoints.readingField f pair.2 f.fields.2.1) (s.family f).2.1
  short : ∀ f, DecimalKept (endpoints.readingField f pair.2 f.fields.2.2) (s.family f).2.2

/-- A merge that reads the line alone adds one row, which keeps the pair. -/
def LineKept (endpoints : PerpEndpoints) (ingestDate : Int) (pair : String × String) (premium : JsonObject)
    (line : Dict String) : Prop :=
  ∃ s, RowKept endpoints pair premium s ∧ ∀ now lookbackDays, currentDate now - (lookbackDays : Nat) ≤ ingestDate →
    mergeSilverPerpContext now lookbackDays [⟨line, ingestDate⟩] [] = .ok [s]

/-- **A poll keeps absent apart from zero**: it writes a line of each pair that `premiumIndex` answered for, in their
order, and the merge makes of it what the venue said. -/
def AbsenceKept (endpoints : PerpEndpoints) : Prop :=
  ∃ object, endpoints.poll.collect = .ok object ∧
    List.Forall₂ (fun a line => LineKept endpoints object.ingestDate a.1 a.2 line) endpoints.poll.answered object.lines

/-- The instants that `from_unixtime` of a decimal with one digit keeps, among those of 64 bits. -/
def OnTenthMillis (millis : Int) : Prop := millis % 100 = 0 ∧ -2 ^ 63 ≤ millis * 1000 ∧ millis * 1000 < 2 ^ 63

/-- What the venue must say of the next funding. -/
def FundingSupplied (premium : JsonObject) : Prop :=
  ∃ millis, SuppliesInstant (Dict.get? premium "nextFundingTime") millis ∧ OnTenthMillis millis

theorem timestampOf_millis_iff (millis : Int) : timestampOf (millis * 1000) = millis * 1000 ↔ millis % 100 = 0 := by
  have heq := timestampOf_eq (millis * 1000)
  have hnear := timestampOf_near (millis * 1000)
  omega

theorem rowKept_of_selected {endpoints : PerpEndpoints} {snapshotTsUs : Int} {pair : String × String}
    {premium : JsonObject} {row : PerpContext} {s : SilverPerpRow} (hpair : pair ∈ endpoints.pairs)
    (hrow : RowOf endpoints.poll snapshotTsUs pair premium row) (hs : Selected row s)
    (hnext : InstantKept (Dict.get? premium "nextFundingTime") s.nextFundingTs) : RowKept endpoints pair premium s where
  instrumentId := by rw [hs.instrumentId, hrow.instrumentId]
  venueSymbol := by rw [hs.venueSymbol, hrow.venueSymbol]
  markPrice := by rw [hs.markPrice, hrow.markPrice]; exact decimalKept_valueText _
  indexPrice := by rw [hs.indexPrice, hrow.indexPrice]; exact decimalKept_valueText _
  fundingRate := by rw [hs.fundingRate, hrow.lastFundingRate]; exact decimalKept_valueText _
  interestRate := by rw [hs.interestRate, hrow.interestRate]; exact decimalKept_valueText _
  nextFundingTs := hnext
  openInterest := by
    rw [hs.openInterest, hrow.openInterest, endpoints.interestField_poll hpair]
    exact decimalKept_valueText _
  ratio := fun f => by rw [hs.family, hrow.ratio, endpoints.readingField_poll hpair]; exact decimalKept_valueText _
  long := fun f => by rw [hs.family, hrow.long, endpoints.readingField_poll hpair]; exact decimalKept_valueText _
  short := fun f => by rw [hs.family, hrow.short, endpoints.readingField_poll hpair]; exact decimalKept_valueText _

/-- **The one column that a zero stands in for**: the next funding is kept only where the venue said one. -/
theorem instantKept_iff {v : Option Json} {us : Int} (h : millisToMicros v = .ok us) :
    InstantKept v (some (timestampOf us)) ↔ ∃ millis, SuppliesInstant v millis ∧ millis % 100 = 0 := by
  constructor
  · intro hkept
    rcases millisToMicros_ok h with ⟨habsent, -⟩ | ⟨millis, hmillis, rfl⟩
    · have hnull := (hkept.null_iff (Or.inl habsent)).2 habsent
      cases hnull
    · exact ⟨millis, hmillis, (timestampOf_millis_iff millis).1 (Option.some.inj (hkept.exact millis hmillis))⟩
  · rintro ⟨millis, hmillis, htenth⟩
    have hus : us = millis * 1000 := Except.ok.inj (h.symm.trans hmillis.millisToMicros)
    rw [hus, (timestampOf_millis_iff millis).2 htenth]
    have hunique : ∀ other, SuppliesInstant v other → other = millis := by
      intro other hother
      have hsame := Except.ok.inj (hother.millisToMicros.symm.trans hmillis.millisToMicros)
      omega
    refine ⟨fun _ => iff_of_false (Option.some_ne_none _) hmillis.not_absent, fun other hother => ?_⟩
    rw [hunique other hother]

/-- **A line is kept exactly when the venue said when the next funding is**, to the tenth of a second. -/
theorem lineKept_iff {endpoints : PerpEndpoints} {pair : String × String} {premium : JsonObject} {row : PerpContext}
    (hwritten : Written endpoints.poll) (hpair : pair ∈ endpoints.pairs)
    (hrow : RowOf endpoints.poll (endpoints.pollTsUs - endpoints.pollTsUs % gridUs) pair premium row)
    (ingestDate : Int) :
    LineKept endpoints ingestDate pair premium row.toJson ↔ FundingSupplied premium := by
  have hinWindow : ∀ now lookbackDays, currentDate now - (lookbackDays : Nat) ≤ ingestDate →
      mergeSilverPerpContext now lookbackDays [⟨row.toJson, ingestDate⟩] [] =
        (silverPerpOf ⟨row.toJson, ingestDate⟩).map (fun s => [s]) := by
    intro now lookbackDays hle
    refine mergeSilverPerpContext_singleton ?_
    unfold perpInWindow
    rw [decide_eq_true hle]
    rfl
  constructor
  · rintro ⟨s, hkept, hmerge⟩
    have hsel : silverPerpOf ⟨row.toJson, ingestDate⟩ = .ok s := by
      have hday : currentDate (ingestDate * millisPerDay) - (0 : Nat) ≤ ingestDate := by
        unfold currentDate millisPerDay
        omega
      have hone := (hinWindow _ 0 hday).symm.trans (hmerge _ 0 hday)
      cases hs : silverPerpOf ⟨row.toJson, ingestDate⟩ with
      | error e => rw [hs] at hone; cases hone
      | ok s' =>
        rw [hs] at hone
        cases hone
        rfl
    obtain ⟨hbounds, hselected⟩ := silverPerpOf_ok hsel
    have hinstant := hkept.nextFundingTs
    rw [hselected.nextFundingTs] at hinstant
    obtain ⟨millis, hmillis, htenth⟩ := (instantKept_iff hrow.nextFundingTimeUs).1 hinstant
    have hus : row.nextFundingTimeUs = millis * 1000 :=
      Except.ok.inj (hrow.nextFundingTimeUs.symm.trans hmillis.millisToMicros)
    rw [hus] at hbounds
    exact ⟨millis, hmillis, htenth, hbounds⟩
  · rintro ⟨millis, hmillis, htenth, hbounds⟩
    have hus : row.nextFundingTimeUs = millis * 1000 :=
      Except.ok.inj (hrow.nextFundingTimeUs.symm.trans hmillis.millisToMicros)
    have hpositive : 0 < endpoints.pollTsUs := hwritten.positive
    have hbefore : endpoints.pollTsUs < endOfDatetime := hwritten.before
    have hpoll : row.pollTsUs = endpoints.pollTsUs := hrow.pollTsUs
    have hsnapshot := hrow.snapshotTsUs
    unfold endOfDatetime at hbefore
    unfold gridUs at hsnapshot
    obtain ⟨s, hsel⟩ : ∃ s, silverPerpOf ⟨row.toJson, ingestDate⟩ = .ok s :=
      silverPerpOf_total ingestDate (by omega) (by omega) (by omega)
    have hselected := (silverPerpOf_ok hsel).2
    refine ⟨s, rowKept_of_selected hpair hrow hselected ?_, fun now lookbackDays hle => ?_⟩
    · rw [hselected.nextFundingTs]
      exact (instantKept_iff hrow.nextFundingTimeUs).2 ⟨millis, hmillis, htenth⟩
    · rw [hinWindow now lookbackDays hle, hsel]
      rfl

/-- **Silver says what the venue said exactly when** nothing of the poll raises, and every answered object has a next
funding time. -/
theorem absenceKept_iff (endpoints : PerpEndpoints) :
    AbsenceKept endpoints ↔ Written endpoints.poll ∧ ∀ a ∈ endpoints.poll.answered, FundingSupplied a.2 := by
  have hasked : ∀ a ∈ endpoints.poll.answered, a.1 ∈ endpoints.pairs := by
    intro a ha
    rw [← endpoints.pairs_poll]
    exact (PerpPoll.mem_answered ha).1
  constructor
  · rintro ⟨object, hcollect, hkept⟩
    obtain ⟨hwritten, -, rows, hlines, hrows⟩ := PerpPoll.collect_ok hcollect
    refine ⟨hwritten, fun a ha => ?_⟩
    rw [hlines, List.forall₂_map_right_iff] at hkept
    obtain ⟨hlength, hkept⟩ := List.forall₂_iff_zip.1 hkept
    obtain ⟨i, hi, rfl⟩ := List.getElem_of_mem ha
    have hmem : (endpoints.poll.answered[i], rows[i]) ∈ endpoints.poll.answered.zip rows := by
      rw [← List.getElem_zip (h := by rw [List.length_zip]; omega)]
      exact List.getElem_mem _
    exact (lineKept_iff hwritten (hasked _ ha) ((List.forall₂_iff_zip.1 hrows).2 hmem) _).1 (hkept hmem)
  · rintro ⟨hwritten, hfunding⟩
    obtain ⟨object, hcollect⟩ := hwritten.collect
    obtain ⟨-, -, rows, hlines, hrows⟩ := PerpPoll.collect_ok hcollect
    refine ⟨object, hcollect, ?_⟩
    rw [hlines, List.forall₂_map_right_iff]
    obtain ⟨hlength, hrows⟩ := List.forall₂_iff_zip.1 hrows
    refine List.forall₂_iff_zip.2 ⟨hlength, fun {a row} hmem => ?_⟩
    have ha := (List.of_mem_zip hmem).1
    exact (lineKept_iff hwritten (hasked a ha) (hrows hmem) _).2 (hfunding a ha)

/-! ## A poll without a next funding time -/

def unfundedPremium : JsonObject :=
  [("symbol", .str "BTCUSDT"), ("markPrice", .str "64182.44374813"), ("indexPrice", .str "64216.74913043"),
   ("lastFundingRate", .str "0.00003686"), ("interestRate", .str "0.00010000"), ("time", .int 1787028275001)]

/-- `premiumIndex` answers, and no other endpoint. -/
def unfundedPoll : PerpEndpoints where
  pairs := [("BTC-USD", "BTCUSDT")]
  pollTsUs := 1787028300000000
  premiumIndex := .answered [unfundedPremium]
  openInterest := fun _ => .unavailable
  ratio := fun _ _ => .unavailable

/-- The next funding that Silver has after the merge of a poll's object. -/
def fundingAfter (poll : PerpPoll) (now : Int) (lookbackDays : Nat) : Option (List (Option Int)) :=
  poll.collect.toOption.bind (fun object =>
    (mergeSilverPerpContext now lookbackDays (object.lines.map (fun line => ⟨line, object.ingestDate⟩)) []).toOption.map
      (List.map SilverPerpRow.nextFundingTs))

/-- **A next funding time that the venue left out is 1970-01-01 in Silver.** -/
theorem absent_funding_becomes_1970 :
    fundingAfter unfundedPoll.poll 1787028600000 1 = some [some 0] ∧ ¬ AbsenceKept unfundedPoll := by
  refine ⟨by decide +kernel, ?_⟩
  rintro ⟨object, hcollect, hkept⟩
  obtain ⟨hwritten, -, rows, hlines, hrows⟩ := PerpPoll.collect_ok hcollect
  have hanswered : unfundedPoll.poll.answered = [(("BTC-USD", "BTCUSDT"), unfundedPremium)] := by decide +kernel
  rw [hlines, List.forall₂_map_right_iff, hanswered] at hkept
  rw [hanswered] at hrows
  cases hrows with
  | cons hrow hrest =>
    cases hkept with
    | cons hline hlines =>
      obtain ⟨millis, ⟨value, hvalue, -⟩, -⟩ := (lineKept_iff hwritten List.mem_cons_self hrow _).1 hline
      cases hvalue

end Awsnative
