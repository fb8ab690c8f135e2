import Mathlib.Algebra.BigOperators.Group.List.Basic
import Mathlib.Algebra.GroupWithZero.Nat
import RealtimeFinance.Backfill.Loader
import RealtimeFinance.Backfill.StagingRoundTrip
/-!
# LoadAtomic — one invocation of the loader, call by call

`Loader.load` with what it does to the bucket: `fetch` answers anything, and every call of `put` is kept.  An invocation
puts the whole body of a file that was accepted, last of all, and otherwise nothing (`load_run`).
-/
namespace Backfill

open Ingest Sql

/-- A call of `put`. -/
structure Put where
  key : String
  body : ByteArray

/-- What is put stays put, also where the invocation raises. -/
abbrev LoadM := ExceptT Raised (StateM (List Put))

def LoadM.ofExcept {α : Type} (x : Except Raised α) : LoadM α := ExceptT.mk (pure x)

/-- Run after the calls `puts`: how it ends, and the calls made by then. -/
def LoadM.runFrom {α : Type} (m : LoadM α) (puts : List Put) : Except Raised α × List Put := m.run.run puts

/-- `Loader`, with the libraries it uses. -/
structure Loader where
  lib : Stdlib
  gzip : Gzip
  fetch : String → Except Raised ByteArray

namespace Loader

variable (loader : Loader) (item : WorkItem)

def put (key : String) (body : ByteArray) : LoadM Unit := modify (fun puts => puts ++ [⟨key, body⟩])

/-- `_stage`. -/
def stage (lines : List String) : Except ParseError (ByteArray × Nat) :=
  match item.tier with
  | .deep => (parseKlines lines).map (fun bars => (klinesCsvGz loader.gzip item.instrumentId bars, bars.length))
  | .hot  => (parseAggTrades lines).map
    (fun trades => (tradesCsvGz loader.gzip item.instrumentId item.venueSymbol trades, trades.length))

/-- `_load`. -/
def loadFile : LoadM Outcome := do
  let checksumText ← LoadM.ofExcept (loader.fetch (checksumUrlOf item.archiveKey) >>= decode)
  let blob ← LoadM.ofExcept (loader.fetch (urlOf item.archiveKey))
  let digest ← LoadM.ofExcept ((verify loader.lib.digestOf blob checksumText (filenameOf item.archiveKey)).mapError
    (fun e => .data (.checksum e)))
  let lines ← LoadM.ofExcept (soleMemberLines loader.lib blob)
  let (body, rowCount) ← LoadM.ofExcept ((loader.stage item lines).mapError (fun e => .data (.parse e)))
  put item.stagingKey body
  return .ofDone item.archiveKey digest rowCount

/-- `load`. -/
def load : LoadM Outcome :=
  tryCatch (loader.loadFile item) (fun
    | .archiveNotFound url => return .ofSkippedNoData item.archiveKey (.archiveNotFound url)
    | .data error          => return .ofFailed item.archiveKey (.data error)
    | .other               => throw .other)

/-! ## What it does -/

/-- Everything before `put`. -/
def accept : Except Raised (ByteArray × Outcome) := do
  let checksumText ← loader.fetch (checksumUrlOf item.archiveKey) >>= decode
  let blob ← loader.fetch (urlOf item.archiveKey)
  let digest ← (verify loader.lib.digestOf blob checksumText (filenameOf item.archiveKey)).mapError
    (fun e => .data (.checksum e))
  let lines ← soleMemberLines loader.lib blob
  let (body, rowCount) ← (loader.stage item lines).mapError (fun e => .data (.parse e))
  return (body, .ofDone item.archiveKey digest rowCount)

/-- How an invocation of `_load` ends, by what it accepted. -/
def settled (puts : List Put) : Except Raised (ByteArray × Outcome) → Except Raised Outcome × List Put
  | .ok (body, outcome) => (.ok outcome, puts ++ [⟨item.stagingKey, body⟩])
  | .error e            => (.error e, puts)

/-- A step that raises ends the invocation where it is. -/
theorem settled_bind {α : Type} (x : Except Raised α) {f : α → LoadM Outcome} {g : α → Except Raised (ByteArray × Outcome)}
    {puts : List Put} (h : ∀ a, (f a).runFrom puts = settled item puts (g a)) :
    (LoadM.ofExcept x >>= f).runFrom puts = settled item puts (x >>= g) := by
  cases x with
  | error e => rfl
  | ok a => exact h a

/-- **`put` comes last, once everything was accepted.** -/
theorem loadFile_run (puts : List Put) :
    (loader.loadFile item).runFrom puts = settled item puts (loader.accept item) := by
  unfold loadFile accept
  refine settled_bind item _ (fun checksumText => ?_)
  refine settled_bind item _ (fun blob => ?_)
  refine settled_bind item _ (fun digest => ?_)
  refine settled_bind item _ (fun lines => ?_)
  exact settled_bind item _ (fun p => rfl)

theorem runFrom_tryCatch {m : LoadM Outcome} {handler : Raised → LoadM Outcome} {puts puts' : List Put}
    {x : Except Raised Outcome} (h : m.runFrom puts = (x, puts')) : (tryCatch m handler).runFrom puts =
      match x with
      | .ok outcome => (.ok outcome, puts')
      | .error e    => (handler e).runFrom puts' := by
  unfold LoadM.runFrom at *
  simp only [tryCatch, tryCatchThe, MonadExceptOf.tryCatch, ExceptT.tryCatch, ExceptT.run_mk, StateT.run_bind]
  have hrun : StateT.run m puts = (x, puts') := h
  rw [hrun]
  cases x <;> rfl

/-- **An invocation puts the body of a file it accepted, and otherwise nothing**, however it ends. -/
theorem load_run (puts : List Put) : (loader.load item).runFrom puts =
    match loader.accept item with
    | .ok (body, outcome)           => (.ok outcome, puts ++ [⟨item.stagingKey, body⟩])
    | .error (.archiveNotFound url) => (.ok (.ofSkippedNoData item.archiveKey (.archiveNotFound url)), puts)
    | .error (.data error)          => (.ok (.ofFailed item.archiveKey (.data error)), puts)
    | .error .other                 => (.error .other, puts) := by
  unfold load
  cases h : loader.accept item with
  | ok p =>
    have hfile : (loader.loadFile item).runFrom puts = (.ok p.2, puts ++ [⟨item.stagingKey, p.1⟩]) := by
      rw [loadFile_run, h]
      rfl
    rw [runFrom_tryCatch hfile]
  | error e =>
    have hfile : (loader.loadFile item).runFrom puts = (.error e, puts) := by
      rw [loadFile_run, h]
      rfl
    rw [runFrom_tryCatch hfile]
    cases e <;> rfl

/-! ## What was accepted -/

/-- The parser of the tier takes the lines, all of them. -/
def Parses (tier : Tier) (lines : List String) : Prop :=
  match tier with
  | .deep => ∃ bars, parseKlines lines = .ok bars
  | .hot  => ∃ trades, parseAggTrades lines = .ok trades

/-- A newline in an id breaks every line it is written on. -/
def lineBreaks (item : WorkItem) : Nat :=
  match item.tier with
  | .deep => item.instrumentId.toList.count '\n'
  | .hot  => item.instrumentId.toList.count '\n' + item.venueSymbol.toList.count '\n'

/-- The lines of a body, each ended by a newline. -/
def bodyLines (body : ByteArray) : Option Nat := do
  let bytes ← loader.gzip.decompress body
  let text ← String.fromUTF8? bytes
  return text.toList.count '\n'

/-- **What stands behind an outcome that is DONE.** -/
structure Accepted (body : ByteArray) (outcome : Outcome) : Prop where
  done : outcome.status = .done
  named : ∃ bytes text checksum blob, loader.fetch (checksumUrlOf item.archiveKey) = .ok bytes ∧ decode bytes = .ok text ∧
    parseChecksum text = .ok checksum ∧ checksum.filename = filenameOf item.archiveKey ∧
    loader.fetch (urlOf item.archiveKey) = .ok blob ∧ checksum.sha256 = loader.lib.digestOf blob ∧
    outcome.sha256Actual = loader.lib.digestOf blob ∧
    ∃ name content lines, loader.lib.zipFile blob = .ok [(name, .ok content)] ∧
      (decode content).map (fun text => (Python.splitlines text.toList).map String.ofList) = .ok lines ∧
      Parses item.tier lines ∧ outcome.rowCount = (lines.filter (fun line => !isBlank line)).length
  rows : loader.bodyLines body = some (outcome.rowCount * (1 + lineBreaks item))

theorem soleMemberLines_ok {lib : Stdlib} {blob : ByteArray} {lines : List String}
    (h : soleMemberLines lib blob = .ok lines) : ∃ name content text, lib.zipFile blob = .ok [(name, .ok content)] ∧
      decode content = .ok text ∧ lines = (Python.splitlines text.toList).map String.ofList := by
  unfold soleMemberLines at h
  obtain ⟨members, hmembers, h⟩ := bind_ok h
  split at h
  · rename_i name bytes
    obtain ⟨content, hcontent, h⟩ := bind_ok h
    obtain ⟨text, htext, h⟩ := bind_ok h
    cases h
    rw [hcontent] at hmembers
    exact ⟨name, content, text, hmembers, htext, rfl⟩
  · cases h

theorem verify_ok {digestOf : ByteArray → String} {data : ByteArray} {checksumText filename digest : String}
    (h : verify digestOf data checksumText filename = .ok digest) : ∃ checksum, parseChecksum checksumText = .ok checksum ∧
      checksum.filename = filename ∧ checksum.sha256 = digestOf data ∧ digest = digestOf data := by
  obtain ⟨checksum, hchecksum, h⟩ := bind_ok h
  split at h
  · cases h
  · rename_i hname
    split at h
    · cases h
    · rename_i hdigest
      cases h
      exact ⟨checksum, hchecksum, Decidable.not_not.1 hname, (Decidable.not_not.1 hdigest).symm, rfl⟩

/-! ### The lines of a body -/

theorem count_intercalate {x sep : Char} (hx : sep ≠ x) : ∀ ls : List (List Char),
    ([sep].intercalate ls).count x = (ls.map (List.count x)).sum
  | []           => rfl
  | [l]          => by rw [List.intercalate_singleton, List.map_cons, List.map_nil, List.sum_cons, List.sum_nil, Nat.add_zero]
  | l :: l' :: ls => by
    rw [List.intercalate_cons_cons, List.count_append, List.count_append, count_intercalate hx (l' :: ls), List.map_cons,
      List.sum_cons, List.count_singleton]
    simp [hx]

/-- Newlines in the values of a row. -/
def newlines (row : List String) : Nat := (row.map (fun value => value.toList.count '\n')).sum

theorem count_csvLine (row : List String) : (csvLine row).toList.count '\n' = newlines row := by
  unfold csvLine newlines
  rw [String.toList_ofList, count_intercalate (by decide), List.map_map]
  rfl

theorem count_join {rows : List (List String)} {breaks : Nat} (h : ∀ row ∈ rows, newlines row = breaks) :
    (join rows).toList.count '\n' = rows.length * (1 + breaks) := by
  unfold join
  rw [String.toList_ofList]
  induction rows with
  | nil => rw [List.flatMap_nil, List.count_nil, List.length_nil, Nat.zero_mul]
  | cons row rows ih =>
    rw [List.flatMap_cons, List.count_append, List.count_append, count_csvLine, h row List.mem_cons_self,
      ih (fun r hr => h r (List.mem_cons_of_mem _ hr)), List.length_cons, Nat.succ_mul]
    simp
    omega

theorem count_newline {value : String} (h : '\n' ∉ value.toList) : value.toList.count '\n' = 0 := List.count_eq_zero.2 h

theorem newlines_tradeFields {instrumentId venueSymbol : String} {trade : ArchiveAggTrade}
    (h : Plain [trade.price, trade.quantity]) : newlines (tradeFields instrumentId venueSymbol trade) =
      instrumentId.toList.count '\n' + venueSymbol.toList.count '\n' := by
  have hnumber := fun n : Int => count_newline (newline_not_in_toString n)
  have hside : trade.side.text.toList.count '\n' = 0 := by cases trade.side <;> decide
  have hvenue : archiveVenue.toList.count '\n' = 0 := by decide
  unfold Plain at h
  simp only [List.forall_mem_cons] at h
  obtain ⟨⟨-, hprice⟩, ⟨-, hquantity⟩, -⟩ := h
  simp only [newlines, tradeFields, List.map_cons, List.map_nil, List.sum_cons, List.sum_nil, hnumber, hside, hvenue,
    count_newline hprice, count_newline hquantity]
  omega

theorem newlines_klineFields {instrumentId : String} {bar : ArchiveKline}
    (h : Plain [bar.opening, bar.high, bar.low, bar.close, bar.volume, bar.quoteVolume, bar.takerBuyBaseVolume]) :
    newlines (klineFields instrumentId bar) = instrumentId.toList.count '\n' := by
  have hnumber := fun n : Int => count_newline (newline_not_in_toString n)
  unfold Plain at h
  simp only [List.forall_mem_cons] at h
  obtain ⟨⟨-, hopening⟩, ⟨-, hhigh⟩, ⟨-, hlow⟩, ⟨-, hclose⟩, ⟨-, hvolume⟩, ⟨-, hquote⟩, ⟨-, htaker⟩, -⟩ := h
  simp only [newlines, klineFields, List.map_cons, List.map_nil, List.sum_cons, List.sum_nil, hnumber,
    count_newline hopening, count_newline hhigh, count_newline hlow, count_newline hclose, count_newline hvolume,
    count_newline hquote, count_newline htaker]
  omega

theorem bodyLines_ofText (text : String) : loader.bodyLines (loader.gzip.ofText text) = some (text.toList.count '\n') := by
  unfold bodyLines Gzip.ofText
  rw [loader.gzip.roundTrip]
  simp only [Option.bind_eq_bind, Option.bind_some, fromUTF8_toUTF8]
  rfl

theorem bodyLines_join {α : Type} {row : α → List String} {xs : List α} {breaks : Nat}
    (h : ∀ x ∈ xs, newlines (row x) = breaks) :
    loader.bodyLines (loader.gzip.ofText (join (xs.map row))) = some (xs.length * (1 + breaks)) := by
  have hrows : ∀ r ∈ xs.map row, newlines r = breaks := by
    intro r hr
    obtain ⟨x, hx, rfl⟩ := List.mem_map.1 hr
    exact h x hx
  rw [bodyLines_ofText, count_join hrows, List.length_map]

section Lines

variable {lines : List String} (hnewline : ∀ line ∈ lines, '\n' ∉ line.toList)

include hnewline

theorem newlines_of_kline {bars : List ArchiveKline} (h : parseKlines lines = .ok bars) (instrumentId : String) :
    ∀ bar ∈ bars, newlines (klineFields instrumentId bar) = instrumentId.toList.count '\n' := by
  intro bar hbar
  obtain ⟨line, hline, fields, hfields, before, after, hof⟩ := mem_parseLines h bar hbar
  have hplain := plain_of_mem_fieldsOf (hnewline line hline) hfields
  exact newlines_klineFields (fun value hvalue => hplain value ((klineOf_ok hof).1 value hvalue))

theorem newlines_of_trade {trades : List ArchiveAggTrade} (h : parseAggTrades lines = .ok trades)
    (instrumentId venueSymbol : String) : ∀ trade ∈ trades, newlines (tradeFields instrumentId venueSymbol trade) =
      instrumentId.toList.count '\n' + venueSymbol.toList.count '\n' := by
  intro trade htrade
  obtain ⟨line, hline, fields, hfields, before, after, hof⟩ := mem_parseLines h trade htrade
  have hplain := plain_of_mem_fieldsOf (hnewline line hline) hfields
  obtain ⟨hprice, hquantity, -⟩ := aggTradeOf_ok hof
  refine newlines_tradeFields ?_
  unfold Plain
  simp only [List.forall_mem_cons]
  exact ⟨hplain _ hprice, hplain _ hquantity, List.forall_mem_nil _⟩

/-- **A body that was staged** holds a row for each line that is not blank. -/
theorem stage_ok {body : ByteArray} {rowCount : Nat} (h : loader.stage item lines = .ok (body, rowCount)) :
    Parses item.tier lines ∧ rowCount = (lines.filter (fun line => !isBlank line)).length ∧
      loader.bodyLines body = some (rowCount * (1 + lineBreaks item)) := by
  unfold stage at h
  unfold Parses lineBreaks
  cases htier : item.tier with
  | deep =>
    rw [htier] at h
    cases hbars : parseKlines lines with
    | error e =>
      rw [hbars] at h
      cases h
    | ok bars =>
      rw [hbars] at h
      cases h
      exact ⟨⟨bars, rfl⟩, (parseLines_forall₂ hbars).length_eq.symm,
        loader.bodyLines_join (newlines_of_kline hnewline hbars item.instrumentId)⟩
  | hot =>
    rw [htier] at h
    cases htrades : parseAggTrades lines with
    | error e =>
      rw [htrades] at h
      cases h
    | ok trades =>
      rw [htrades] at h
      cases h
      exact ⟨⟨trades, rfl⟩, (parseLines_forall₂ htrades).length_eq.symm,
        loader.bodyLines_join (newlines_of_trade hnewline htrades item.instrumentId item.venueSymbol)⟩

end Lines

theorem mapError_ok {ε ε' α : Type} {f : ε → ε'} {x : Except ε α} {a : α} (h : x.mapError f = .ok a) : x = .ok a := by
  cases x with
  | error e => cases h
  | ok b =>
    cases h
    rfl

/-- **What is put was accepted.** -/
theorem accept_ok {body : ByteArray} {outcome : Outcome} (h : loader.accept item = .ok (body, outcome)) :
    loader.Accepted item body outcome := by
  obtain ⟨text, htext, h⟩ := bind_ok h
  obtain ⟨bytes, hbytes, hdecode⟩ := bind_ok htext
  obtain ⟨blob, hblob, h⟩ := bind_ok h
  obtain ⟨digest, hdigest, h⟩ := bind_ok h
  obtain ⟨lines, hlines, h⟩ := bind_ok h
  obtain ⟨⟨staged, rowCount⟩, hstage, h⟩ := bind_ok h
  cases h
  obtain ⟨checksum, hchecksum, hname, hsha, rfl⟩ := verify_ok (mapError_ok hdigest)
  obtain ⟨name, content, csv, hzip, hcsv, rfl⟩ := soleMemberLines_ok hlines
  have hnewline : ∀ line ∈ (Python.splitlines csv.toList).map String.ofList, '\n' ∉ line.toList := by
    intro line hline
    obtain ⟨cs, hcs, rfl⟩ := List.mem_map.1 hline
    rw [String.toList_ofList]
    exact Python.not_mem_splitlines cs hcs
  obtain ⟨hparses, hcount, hbody⟩ := loader.stage_ok item hnewline (mapError_ok hstage)
  refine ⟨rfl, ⟨bytes, text, checksum, blob, hbytes, hdecode, hchecksum, hname, hblob, hsha, rfl, name, content, _, hzip, ?_,
    hparses, hcount⟩, hbody⟩
  rw [hcsv]
  rfl

/-- **An invocation is atomic.**  It puts one body under the item's staging key when it returns an outcome that is DONE,
of a file that was named, verified and parsed whole; otherwise, failed, skipped or raised, it puts nothing. -/
theorem load_atomic (puts : List Put) :
    (∃ outcome body, (loader.load item).runFrom puts = (.ok outcome, puts ++ [⟨item.stagingKey, body⟩]) ∧
      loader.Accepted item body outcome) ∨
    ((loader.load item).runFrom puts).2 = puts ∧ ∀ outcome, ((loader.load item).runFrom puts).1 = .ok outcome →
      outcome.status = .failed ∨ outcome.status = .skippedNoData := by
  rw [load_run]
  cases h : loader.accept item with
  | ok p => exact Or.inl ⟨p.2, p.1, rfl, loader.accept_ok item h⟩
  | error e =>
    refine Or.inr ?_
    cases e with
    | archiveNotFound url =>
      refine ⟨rfl, fun outcome ho => Or.inr ?_⟩
      cases ho
      rfl
    | data error =>
      refine ⟨rfl, fun outcome ho => Or.inl ?_⟩
      cases ho
      rfl
    | other => exact ⟨rfl, fun outcome ho => by cases ho⟩

theorem Accepted.lines_eq {loader : Loader} {item : WorkItem} {body : ByteArray} {outcome : Outcome}
    (h : loader.Accepted item body outcome) (hids : lineBreaks item = 0) : loader.bodyLines body = some outcome.rowCount := by
  rw [h.rows, hids, Nat.mul_one]

end Loader

/-! ## An id of two lines -/

def octoberKey : String := "data/spot/daily/aggTrades/BTCUSDT/BTCUSDT-aggTrades-2024-10-04.zip"

/-- A zip of one trade. -/
def oneTradeZip : ByteArray := ⟨#[80, 75, 3, 4, 20, 0, 0, 0, 0, 0, 0, 0, 68, 89, 25, 99, 27, 185, 42, 0, 0, 0, 42, 0, 0, 0,
  5, 0, 0, 0, 97, 46, 99, 115, 118, 55, 44, 54, 48, 48, 48, 48, 46, 48, 44, 48, 46, 53, 44, 55, 44, 55, 44, 49, 55, 50, 56,
  48, 48, 48, 54, 48, 48, 48, 48, 48, 44, 84, 114, 117, 101, 44, 84, 114, 117, 101, 10, 80, 75, 1, 2, 20, 3, 20, 0, 0, 0,
  0, 0, 0, 0, 68, 89, 25, 99, 27, 185, 42, 0, 0, 0, 42, 0, 0, 0, 5, 0, 0, 0, 0, 0, 0, 0, 0, 0, 0, 0, 128, 1, 0, 0, 0, 0,
  97, 46, 99, 115, 118, 80, 75, 5, 6, 0, 0, 0, 0, 1, 0, 1, 0, 51, 0, 0, 0, 77, 0, 0, 0, 0, 0]⟩

def oneTradeDigest : String := "cf6a7ad17c26fcde5826dcd36ef2e1f88134679888726264893e99a1c3728ff0"

/-- The archive holds that zip and its checksum, and the libraries read them. -/
def oneTradeLoader : Loader where
  lib := { digestOf := fun _ => oneTradeDigest
           zipFile := fun _ => .ok [("a.csv", .ok "7,60000.0,0.5,7,7,1728000600000,True,True\n".toUTF8)] }
  gzip := memberGzip
  fetch url :=
    if url = urlOf octoberKey then .ok oneTradeZip
    else if url = checksumUrlOf octoberKey then .ok (oneTradeDigest ++ "  BTCUSDT-aggTrades-2024-10-04.zip\n").toUTF8
    else .error (.archiveNotFound url)

def twoLineItem : WorkItem :=
  { tier := .hot, venue := "binance", instrumentId := "BTC\nUSD", venueSymbol := "BTCUSDT", granularity := .daily
    period := "2024-10-04", dt := 20000, archiveKey := octoberKey
    stagingKey := "archive_staging_trades/BTC\nUSD-2024-10-04.csv.gz" }

theorem two_line_id_breaks_rows : ∃ outcome body, (oneTradeLoader.load twoLineItem).runFrom [] =
      (.ok outcome, [⟨twoLineItem.stagingKey, body⟩]) ∧
    outcome.status = .done ∧ outcome.rowCount = 1 ∧ oneTradeLoader.bodyLines body = some 2 := by
  have hrun : (oneTradeLoader.accept twoLineItem).toOption.map
      (fun p => (p.2.status, p.2.rowCount, oneTradeLoader.bodyLines p.1)) = some (.done, 1, some 2) := by decide +kernel
  rw [Loader.load_run]
  cases h : oneTradeLoader.accept twoLineItem with
  | error e =>
    rw [h] at hrun
    cases hrun
  | ok p =>
    rw [h] at hrun
    obtain ⟨hdone, hcount⟩ := Prod.mk.inj (Option.some.inj hrun)
    obtain ⟨hcount, hlines⟩ := Prod.mk.inj hcount
    exact ⟨p.2, p.1, rfl, hdone, hcount, hlines⟩

end Backfill
