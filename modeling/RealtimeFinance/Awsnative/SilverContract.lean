import RealtimeFinance.Awsnative.Convergence
import RealtimeFinance.Awsnative.Classification
import RealtimeFinance.Backfill.Staging
/-!
# SilverContract — what every Silver row can be relied on to have

Gold calls its branch for a price that is not positive unreachable, because a contract keeps such rows out of Silver.
The contract is in one fragment, which the stream's writer reads; it asks for positive amounts and not for a key.  The
archive's writer has no contract at all.  `silverContract_iff` says of a run when all of its Silver rows keep it anyway.
-/
namespace Awsnative

open Sql Runs Backfill

variable (hexMd5 : String → String)

def PositiveDecimal (d : Option (Decimal 38 18)) : Prop := ∃ x, d = some x ∧ 0 < x.unscaled

/-- Non-NULL venue and trade id, `price > 0` and `size > 0`. -/
structure SilverRow.InContract (s : SilverRow) : Prop where
  key : fullKey s.key = true
  price : PositiveDecimal s.price
  size : PositiveDecimal s.size

def InContract (lake : Lake) : Prop := ∀ s ∈ lake.silver, s.InContract

/-- **What a writer would add keeps the contract**: every accepted row of Bronze has a key, and every staged row that
comes first of its key has one, and positive amounts unless Silver has the key already. -/
def MeetsContract (lake : Lake) (st : Statement) : Prop :=
  (∀ now lookbackDays bronze, st = .mergeSilverTrades now lookbackDays bronze →
    ∀ b ∈ bronze, accepted now lookbackDays b = true → fullKey b.key = true) ∧
  (∀ now staging rows, st = .mergeSilverFromArchive now staging → staging.mapM (archiveRow now) = .ok rows →
    ∀ r, IsFirst SilverRow.key SilverRow.eventTsUs rows r → fullKey r.key = true ∧
      (HeldInSilver lake r.key ∨ PositiveDecimal r.price ∧ PositiveDecimal r.size))

theorem silverOf_amounts {b : BronzeRow} {s : SilverRow} (h : silverOf b = .ok s) :
    castDecimal 38 18 b.price = .ok s.price ∧ castDecimal 38 18 b.size = .ok s.size := by
  obtain ⟨price, hprice, h⟩ := bind_ok h
  obtain ⟨size, hsize, h⟩ := bind_ok h
  cases h
  exact ⟨hprice, hsize⟩

/-- **An accepted row with a key is written in contract.** -/
theorem accepted_inContract {now : Int} {lookbackDays : Nat} {b : BronzeRow} {s : SilverRow}
    (hacc : accepted now lookbackDays b = true) (hkey : fullKey b.key = true) (h : silverOf b = .ok s) :
    s.InContract := by
  obtain ⟨⟨p, hp, hpos⟩, ⟨z, hz, hzpos⟩, -⟩ := valid_casts ((accepted_iff now lookbackDays b).1 hacc).2
  obtain ⟨hprice, hsize⟩ := silverOf_amounts h
  rw [castDecimal_eq_ok hp] at hprice
  rw [castDecimal_eq_ok hz] at hsize
  refine ⟨?_, ⟨p, (Except.ok.inj hprice).symm, hpos⟩, ⟨z, (Except.ok.inj hsize).symm, hzpos⟩⟩
  rw [silverOf_key h]
  exact hkey

theorem inserted_inContract_iff {silver source : List SilverRow} (hin : ∀ s ∈ silver, s.InContract) :
    (∀ s ∈ silver ++ silverMerge.inserted source silver, s.InContract) ↔
      ∀ s ∈ silverMerge.inserted source silver, s.InContract := by
  constructor
  · exact fun h s hs => h s (List.mem_append_right _ hs)
  · intro h s hs
    rcases List.mem_append.1 hs with hs | hs
    · exact hin s hs
    · exact h s hs

/-- A key with a NULL is found in no table: its row is inserted. -/
theorem inserted_of_not_full {silver source : List SilverRow} {s : SilverRow} (hs : s ∈ source)
    (hf : fullKey s.key = false) : s ∈ silverMerge.inserted source silver :=
  silverMerge_keyed.inserted_iff.2 ⟨hs, fun hfull => absurd (hfull.symm.trans hf) (by decide)⟩

theorem inContract_of_perm {lake lake' : Lake} (hp : lake'.silver.Perm lake.silver) (h : InContract lake) :
    InContract lake' := fun s hs => h s (hp.mem_iff.1 hs)

theorem inContract_stream_iff {lake : Lake} (hin : InContract lake) (now : Int) (lookbackDays : Nat)
    (bronze : List BronzeRow) : InContract (lake.step hexMd5 (.mergeSilverTrades now lookbackDays bronze)) ↔
      ∀ b ∈ bronze, accepted now lookbackDays b = true → fullKey b.key = true := by
  obtain ⟨source, hsource, -, -, hsilver⟩ := lake.step_mergeSilverTrades hexMd5 now lookbackDays bronze
  unfold InContract
  rw [hsilver, inserted_inContract_iff hin]
  constructor
  · intro h b hb hacc
    obtain ⟨s, hs, hsb⟩ := source_of_accepted hsource hb hacc
    cases hf : fullKey b.key with
    | true => rfl
    | false =>
      have hkey := (h s (inserted_of_not_full hs (by rw [hsb]; exact hf))).key
      rw [hsb, hf] at hkey
      cases hkey
  · intro h s hs
    obtain ⟨b, hb, hacc, hbs⟩ := accepted_of_mem_source hsource (MergeInto.mem_inserted.1 hs).1
    exact accepted_inContract hacc (h b hb hacc) hbs

theorem inContract_archive_iff {lake : Lake} (hin : InContract lake) {rows : List SilverRow} :
    (∀ s ∈ lake.silver ++ silverMerge.inserted (rowNumberOne SilverRow.key SilverRow.eventTsUs rows) lake.silver,
        s.InContract) ↔
      ∀ r, IsFirst SilverRow.key SilverRow.eventTsUs rows r → fullKey r.key = true ∧
        (HeldInSilver lake r.key ∨ PositiveDecimal r.price ∧ PositiveDecimal r.size) := by
  rw [inserted_inContract_iff hin]
  constructor
  · intro h r hfirst
    have hr := (mem_rowNumberOne_iff SilverRow.key SilverRow.eventTsUs rows r).2 hfirst
    have hkey : fullKey r.key = true := by
      cases hf : fullKey r.key with
      | true => rfl
      | false => exact hf.symm.trans (h r (inserted_of_not_full hr hf)).key
    refine ⟨hkey, ?_⟩
    by_cases hheld : HeldInSilver lake r.key
    · exact Or.inl hheld
    · have hins : r ∈ silverMerge.inserted (rowNumberOne SilverRow.key SilverRow.eventTsUs rows) lake.silver := by
        refine silverMerge_keyed.inserted_iff.2 ⟨hr, fun _ => ?_⟩
        rw [← Bool.not_eq_true, rowOf_isSome]
        exact hheld
      exact Or.inr ⟨(h r hins).price, (h r hins).size⟩
  · intro h s hs
    obtain ⟨hmem, habs⟩ := silverMerge_keyed.inserted_iff.1 hs
    obtain ⟨hkey, hheld | ⟨hprice, hsize⟩⟩ := h s ((mem_rowNumberOne_iff _ _ _ s).1 hmem)
    · have hnone := habs hkey
      rw [rowOf_isSome.2 hheld] at hnone
      cases hnone
    · exact ⟨hkey, hprice, hsize⟩

theorem silverContract_step_iff {lake : Lake} (hin : InContract lake) (st : Statement) :
    InContract (lake.step hexMd5 st) ↔ MeetsContract lake st := by
  have hother : ∀ st : Statement, (∀ now lookbackDays bronze, st ≠ .mergeSilverTrades now lookbackDays bronze) →
      (∀ now staging, st ≠ .mergeSilverFromArchive now staging) →
      (InContract (lake.step hexMd5 st) ↔ MeetsContract lake st) := fun st hst hsa =>
    iff_of_true (inContract_of_perm (lake.step_silver_perm hexMd5 hst hsa) hin)
      ⟨fun now lookbackDays bronze h => absurd h (hst now lookbackDays bronze),
        fun now staging _ h => absurd h (hsa now staging)⟩
  cases st with
  | mergeSilverTrades now lookbackDays bronze =>
    rw [inContract_stream_iff hexMd5 hin]
    constructor
    · intro h
      refine ⟨fun now' lookbackDays' bronze' hst => ?_, fun _ _ _ hst => (by cases hst)⟩
      cases hst
      exact h
    · exact fun h => h.1 now lookbackDays bronze rfl
  | mergeSilverFromArchive now staging =>
    cases hc : lake.commits hexMd5 (.mergeSilverFromArchive now staging) with
    | false =>
      refine iff_of_true (by rw [Lake.step_of_not_commits hexMd5 hc]; exact hin)
        ⟨fun _ _ _ hst => (by cases hst), fun now' staging' rows hst hrows => ?_⟩
      cases hst
      rw [lake.commits_mergeSilverFromArchive hexMd5 hrows] at hc
      cases hc
    | true =>
      obtain ⟨rows, hrows, hsilver⟩ := Lake.step_mergeSilverFromArchive hexMd5 hc
      unfold InContract
      rw [hsilver, inContract_archive_iff hin]
      constructor
      · intro h
        refine ⟨fun _ _ _ hst => (by cases hst), fun now' staging' rows' hst hrows' => ?_⟩
        cases hst
        rw [hrows] at hrows'
        cases hrows'
        exact h
      · exact fun h => h.2 now staging rows rfl hrows
  | mergeSilverQuarantine | mergeGoldBars1m | mergeGoldFromArchive | optimizeSilverTrades =>
    exact hother _ (fun _ _ _ h => by cases h) (fun _ _ h => by cases h)

/-- **Over a run from the empty tables, every Silver row reached is in contract exactly when** every step adds only
rows that are. -/
theorem silverContract_iff (run : List Statement) :
    AllReached (Lake.step hexMd5) InContract Lake.empty run ↔
      AllSteps (Lake.step hexMd5) MeetsContract Lake.empty run :=
  AllSteps.congr (I := InContract) (fun _ st hin => silverContract_step_iff hexMd5 hin st) (fun _ _ _ h => h)
    (fun s hs => by cases hs)

/-- What the loader has staged: each hot-tier file parsed and written whole, the objects scanned in some order. -/
def LoadedTrades (staging : List StagedTrade) : Prop :=
  ∃ (files : List (String × String × List String)) (parts : List (List StagedTrade)),
    files.map (fun file => stageTrades file.1 file.2.1 file.2.2) = parts.map Except.ok ∧ staging.Perm parts.flatten

/-- An archive row without a price, and what is staged of it. -/
def unpricedLine : String := "7,0.00000000,0.5,7,7,1728000600000,True,True"

def unpricedTrade : StagedTrade :=
  { instrumentId := some "BTC-USD", venue := some "binance", venueSymbol := some "BTCUSDT", aggTradeId := some "7"
    price := some "0.00000000", quantity := some "0.5", eventTsUs := some "1728000600000000", side := some "SELL" }

theorem unpriced_archive_trade_enters :
    ¬ ∀ (hexMd5 : String → String) (run : List Statement),
      (∀ now staging, Statement.mergeSilverFromArchive now staging ∈ run → LoadedTrades staging) →
      AllReached (Lake.step hexMd5) InContract Lake.empty run := by
  intro h
  have hstage : (stageTrades "BTC-USD" "BTCUSDT" [unpricedLine]).toOption = some [unpricedTrade] := by decide +kernel
  have hfile : stageTrades "BTC-USD" "BTCUSDT" [unpricedLine] = .ok [unpricedTrade] := by
    cases hs : stageTrades "BTC-USD" "BTCUSDT" [unpricedLine] with
    | error e => rw [hs] at hstage; cases hstage
    | ok staging => rw [hs] at hstage; rw [Option.some.inj hstage]
  have hloaded : LoadedTrades [unpricedTrade] :=
    ⟨[("BTC-USD", "BTCUSDT", [unpricedLine])], [[unpricedTrade]], by simp [hfile], by simp⟩
  have hrun := h id [.mergeSilverFromArchive 1728172500000 [unpricedTrade]] (fun now staging hst => by
    rw [List.mem_singleton] at hst
    cases hst
    exact hloaded)
  have hreached := hrun [] (.mergeSilverFromArchive 1728172500000 [unpricedTrade]) [] rfl
  have hprice : ((Lake.empty.step id (.mergeSilverFromArchive 1728172500000 [unpricedTrade])).silver.map
      (fun s => s.price.map Decimal.unscaled)) = [some 0] := by decide
  obtain ⟨s, hs, hzero⟩ := List.mem_map.1 (show some (0 : Int) ∈ _ from hprice ▸ List.mem_singleton.2 rfl)
  obtain ⟨x, hx, hpos⟩ := (hreached s hs).price
  rw [hx, Option.map_some, Option.some.injEq] at hzero
  omega

end Awsnative
