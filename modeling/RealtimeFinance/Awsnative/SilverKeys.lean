import RealtimeFinance.Awsnative.Lake
/-!
# SilverKeys — what one row per `(venue, trade_id)` means over runs of both writers

The `ON` condition never finds a NULL equal, so a key with a NULL enters Silver each time it is read: the table is
unique, NULL equal to NULL, and a re-run changes nothing, exactly when no such key is read (`silverKeys_iff`).  A full key
is one row whatever its symbol, so two symbols' trades of one id collapse (`offered_in_silver_iff`).
-/
namespace Awsnative

open Sql Runs

variable (hexMd5 : String → String)

def StagedTrade.key (a : StagedTrade) : Option String × Option String := (a.venue, a.aggTradeId)

theorem archiveRow_key {now : Int} {a : StagedTrade} {s : SilverRow} (h : archiveRow now a = .ok s) : s.key = a.key := by
  obtain ⟨hv, -, -, ht, -⟩ := archiveRow_ok h
  unfold SilverRow.key StagedTrade.key
  rw [hv, ht]

/-- **The key of a staged row is a key of the archive's source.** -/
theorem source_of_staged {now : Int} {staging : List StagedTrade} {rows : List SilverRow}
    (h : staging.mapM (archiveRow now) = .ok rows) {a : StagedTrade} (ha : a ∈ staging) :
    ∃ s ∈ rowNumberOne SilverRow.key SilverRow.eventTsUs rows, s.key = a.key := by
  obtain ⟨r, hr, har⟩ := (mapM_ok h).1 a ha
  obtain ⟨s, hs, hsr, -⟩ := rowNumberOne_covers SilverRow.key SilverRow.eventTsUs rows r hr
  exact ⟨s, hs, hsr.trans (archiveRow_key har)⟩

theorem silverOf_key {b : BronzeRow} {s : SilverRow} (h : silverOf b = .ok s) : s.key = b.key := by
  obtain ⟨hv, -, -, ht, -⟩ := silverOf_ok h
  unfold SilverRow.key BronzeRow.key
  rw [hv, ht]

/-! ## Unique keys, and a merge run twice -/

def UniqueNullSafe (lake : Lake) : Prop := (lake.silver.map SilverRow.key).Nodup

/-- The statement, if a Silver merge, run again on the same Bronze at the same clock leaves Silver as it is. -/
def RerunUnchanged (lake : Lake) (st : Statement) : Prop :=
  ∀ now lookbackDays bronze bronze', st = .mergeSilverTrades now lookbackDays bronze → bronze'.Perm bronze →
    mergeSilverTrades now lookbackDays bronze' (lake.step hexMd5 st).silver = .ok (lake.step hexMd5 st).silver

/-- **No key with a NULL is read into Silver**: not from an accepted row, and from staging not a second time. -/
def ReadsFullKeys (lake : Lake) (st : Statement) : Prop :=
  (∀ now lookbackDays bronze, st = .mergeSilverTrades now lookbackDays bronze →
    ∀ b ∈ bronze, accepted now lookbackDays b = true → fullKey b.key = true) ∧
  (∀ now staging, st = .mergeSilverFromArchive now staging → lake.commits hexMd5 st = true →
    ∀ a ∈ staging, fullKey a.key = true ∨ a.key ∉ lake.silver.map SilverRow.key)

theorem rerun_inserts {now : Int} {lookbackDays : Nat} {bronze : List BronzeRow} {silver : List SilverRow}
    (h : mergeSilverTrades now lookbackDays bronze silver = .ok silver) {b : BronzeRow} (hb : b ∈ bronze)
    (hacc : accepted now lookbackDays b = true) : fullKey b.key = true := by
  obtain ⟨source, hsource, -, hmerge⟩ := mergeSilverTrades_ok now lookbackDays bronze silver
  have hnil : silverMerge.inserted source silver = [] := by
    rw [hmerge] at h
    exact List.append_right_eq_self.1 (Except.ok.inj h)
  obtain ⟨s, hs, hsb⟩ := source_of_accepted hsource hb hacc
  cases hf : fullKey b.key with
  | true => rfl
  | false =>
    have hin : s ∈ silverMerge.inserted source silver :=
      silverMerge_keyed.inserted_iff.2 ⟨hs, fun hfs => by rw [hsb, hf] at hfs; cases hfs⟩
    rw [hnil] at hin
    cases hin

/-- **A Silver merge is a no-op the second time exactly when its accepted rows have full keys.** -/
theorem rerunUnchanged_iff (lake : Lake) (now : Int) (lookbackDays : Nat) (bronze : List BronzeRow) :
    RerunUnchanged hexMd5 lake (.mergeSilverTrades now lookbackDays bronze) ↔
      ∀ b ∈ bronze, accepted now lookbackDays b = true → fullKey b.key = true := by
  constructor
  · intro h b hb hacc
    exact rerun_inserts (h now lookbackDays bronze bronze rfl (List.Perm.refl _)) hb hacc
  · rintro hfull now' lookbackDays' bronze' again hst hperm
    cases hst
    obtain ⟨source, hsource, -, hcommits, -⟩ := lake.step_mergeSilverTrades hexMd5 now lookbackDays bronze
    generalize hlake : lake.step hexMd5 (.mergeSilverTrades now lookbackDays bronze) = lake'
    obtain ⟨source', hsource', -, hmerge'⟩ := mergeSilverTrades_ok now lookbackDays again lake'.silver
    have hnil : silverMerge.inserted source' lake'.silver = [] := by
      refine silverMerge_keyed.inserted_eq_nil (fun s hs => ?_)
      obtain ⟨b, hb, hacc, hbs⟩ := accepted_of_mem_source hsource' hs
      have hb := hperm.mem_iff.1 hb
      rw [silverOf_key hbs]
      refine ⟨hfull b hb hacc, ?_⟩
      obtain ⟨t, ht, htb⟩ := source_of_accepted hsource hb hacc
      obtain ⟨u, hu, hut⟩ :=
        Lake.step_covers hexMd5 (Or.inl ⟨now, lookbackDays, bronze, rfl, hsource⟩) hcommits ht
      rw [hlake] at hu
      exact ⟨u, hu, hut.trans htb⟩
    rw [hmerge', hnil, List.append_nil]

theorem nodup_inserted_iff {source silver : List SilverRow} (hs : (source.map SilverRow.key).Nodup)
    (hu : (silver.map SilverRow.key).Nodup) :
    ((silver ++ silverMerge.inserted source silver).map SilverRow.key).Nodup ↔
      ∀ s ∈ source, fullKey s.key = true ∨ s.key ∉ silver.map SilverRow.key := by
  have hsub : ((silverMerge.inserted source silver).map SilverRow.key).Nodup :=
    (List.filter_sublist.map SilverRow.key).nodup hs
  rw [List.map_append, List.nodup_append]
  constructor
  · rintro ⟨-, -, hdisj⟩ s hmem
    cases hf : fullKey s.key with
    | true => exact Or.inl rfl
    | false =>
      have hin : s ∈ silverMerge.inserted source silver :=
        silverMerge_keyed.inserted_iff.2 ⟨hmem, fun hfs => by rw [hf] at hfs; cases hfs⟩
      exact Or.inr (fun hk => hdisj _ hk _ (List.mem_map_of_mem hin) rfl)
  · intro h
    refine ⟨hu, hsub, fun k hk k' hk' he => ?_⟩
    obtain ⟨s, hin, rfl⟩ := List.mem_map.1 hk'
    obtain ⟨hmem, habs⟩ := silverMerge_keyed.inserted_iff.1 hin
    rcases h s hmem with hf | hn
    · obtain ⟨t, ht, rfl⟩ := List.mem_map.1 hk
      have := habs hf
      rw [rowOf_isSome.2 ⟨t, ht, he⟩] at this
      cases this
    · exact hn (he ▸ hk)

/-- The stream's writer: its keys are kept apart, and its rerun silent, when none it accepts has a NULL. -/
theorem silverKeys_trades_iff {lake : Lake} (hu : UniqueNullSafe lake) (now : Int) (lookbackDays : Nat)
    (bronze : List BronzeRow) :
    (UniqueNullSafe (lake.step hexMd5 (.mergeSilverTrades now lookbackDays bronze)) ∧
        RerunUnchanged hexMd5 lake (.mergeSilverTrades now lookbackDays bronze)) ↔
      ReadsFullKeys hexMd5 lake (.mergeSilverTrades now lookbackDays bronze) := by
  rw [rerunUnchanged_iff]
  constructor
  · rintro ⟨-, hfull⟩
    refine ⟨fun now' lookbackDays' bronze' hst => ?_, fun now staging hst => (by cases hst)⟩
    cases hst
    exact hfull
  · intro hreads
    have hfull := hreads.1 now lookbackDays bronze rfl
    refine ⟨?_, hfull⟩
    obtain ⟨source, hsource, hnodup, -, hsilver⟩ := lake.step_mergeSilverTrades hexMd5 now lookbackDays bronze
    unfold UniqueNullSafe
    rw [hsilver]
    refine (nodup_inserted_iff hnodup hu).2 (fun s hs => Or.inl ?_)
    obtain ⟨b, hb, hacc, hbs⟩ := accepted_of_mem_source hsource hs
    rw [silverOf_key hbs]
    exact hfull b hb hacc

/-- The archive's writer, where its staging commits. -/
theorem silverKeys_archive_iff {lake : Lake} (hu : UniqueNullSafe lake) {now : Int} {staging : List StagedTrade}
    (hc : lake.commits hexMd5 (.mergeSilverFromArchive now staging) = true) :
    UniqueNullSafe (lake.step hexMd5 (.mergeSilverFromArchive now staging)) ↔
      ReadsFullKeys hexMd5 lake (.mergeSilverFromArchive now staging) := by
  obtain ⟨rows, hrows, hsilver⟩ := Lake.step_mergeSilverFromArchive hexMd5 hc
  unfold UniqueNullSafe
  rw [hsilver, nodup_inserted_iff (rowNumberOne_nodup _ _ _) hu]
  constructor
  · intro h
    refine ⟨fun _ _ _ hst => (by cases hst), fun now' staging' hst _ a ha => ?_⟩
    cases hst
    obtain ⟨k, hk, hka⟩ := source_of_staged hrows ha
    have hfull := h k hk
    rw [hka] at hfull
    exact hfull
  · intro h s hs
    obtain ⟨a, ha, has⟩ := (mapM_ok hrows).2 s (mem_of_mem_rowNumberOne _ _ hs)
    rw [archiveRow_key has]
    exact h.2 now staging rfl hc a ha

theorem silverKeys_step_iff {lake : Lake} (hu : UniqueNullSafe lake) (st : Statement) :
    (UniqueNullSafe (lake.step hexMd5 st) ∧ RerunUnchanged hexMd5 lake st) ↔ ReadsFullKeys hexMd5 lake st := by
  have hperm : ∀ st : Statement, (∀ now lookbackDays bronze, st ≠ .mergeSilverTrades now lookbackDays bronze) →
      (∀ now staging, st ≠ .mergeSilverFromArchive now staging) →
      ((UniqueNullSafe (lake.step hexMd5 st) ∧ RerunUnchanged hexMd5 lake st) ↔ ReadsFullKeys hexMd5 lake st) := by
    intro st hst hsa
    refine iff_of_true ⟨?_, fun now lookbackDays bronze _ h => absurd h (hst now lookbackDays bronze)⟩
      ⟨fun now lookbackDays bronze h => absurd h (hst now lookbackDays bronze),
        fun now staging h => absurd h (hsa now staging)⟩
    exact ((lake.step_silver_perm hexMd5 hst hsa).map SilverRow.key).nodup_iff.2 hu
  cases st with
  | mergeSilverTrades now lookbackDays bronze => exact silverKeys_trades_iff hexMd5 hu now lookbackDays bronze
  | mergeSilverFromArchive now staging =>
    have hrerun : RerunUnchanged hexMd5 lake (.mergeSilverFromArchive now staging) := fun _ _ _ _ h => by cases h
    cases hc : lake.commits hexMd5 (.mergeSilverFromArchive now staging) with
    | false =>
      refine iff_of_true ⟨?_, hrerun⟩ ⟨fun _ _ _ h => (by cases h), fun now' staging' hst hc' => ?_⟩
      · rw [Lake.step_of_not_commits hexMd5 hc]
        exact hu
      · cases hst
        rw [hc] at hc'
        cases hc'
    | true => exact (and_iff_left hrerun).trans (silverKeys_archive_iff hexMd5 hu hc)
  | mergeSilverQuarantine | mergeGoldBars1m | mergeGoldFromArchive | optimizeSilverTrades =>
    exact hperm _ (fun _ _ _ h => by cases h) (fun _ _ h => by cases h)

/-- **Over a run from the empty tables, Silver stays unique and every merge of it idempotent exactly when** no step
reads a key with a NULL into it. -/
theorem silverKeys_iff (run : List Statement) :
    AllSteps (Lake.step hexMd5) (fun lake st => UniqueNullSafe (lake.step hexMd5 st) ∧ RerunUnchanged hexMd5 lake st)
      Lake.empty run ↔
    AllSteps (Lake.step hexMd5) (ReadsFullKeys hexMd5) Lake.empty run :=
  AllSteps.congr (I := UniqueNullSafe) (fun _ st hu => silverKeys_step_iff hexMd5 hu st) (fun _ _ _ h => h.1)
    List.nodup_nil

/-- A row whose JSON key for `trade_id` did not match: NULL, and valid. -/
def keylessTrade : BronzeRow :=
  { venue := some "binance", venueSymbol := some "BTCUSDT", instrumentId := some "BTC-USD", tradeId := none
    eventTsUs := some 1728000600000000, ingestTsUs := some 1728000600100000, price := some "60000.5"
    size := some "0.25", side := some "BUY", sequence := some 1, isBackfill := some false, source := some "STREAM"
    ingestDate := 20000 }

theorem keyless_trade_enters_twice :
    ¬ ∀ (hexMd5 : String → String) (run : List Statement), AllSteps (Lake.step hexMd5)
      (fun lake st => UniqueNullSafe (lake.step hexMd5 st) ∧ RerunUnchanged hexMd5 lake st) Lake.empty run := by
  intro h
  have hlast := h id [.mergeSilverTrades 1728000900000 1 [keylessTrade], .mergeSilverTrades 1728001200000 1 [keylessTrade]]
    [.mergeSilverTrades 1728000900000 1 [keylessTrade]] _ [] rfl
  exact absurd hlast.1 (by unfold UniqueNullSafe; decide)

/-! ## A trade's identity -/

structure TradeIdentity where
  venue : Option String
  venueSymbol : Option String
  tradeId : Option String
  deriving DecidableEq

def TradeIdentity.key (i : TradeIdentity) : Option String × Option String := (i.venue, i.tradeId)

def SilverRow.identity (s : SilverRow) : TradeIdentity := ⟨s.venue, s.venueSymbol, s.tradeId⟩

def BronzeRow.identity (b : BronzeRow) : TradeIdentity := ⟨b.venue, b.venueSymbol, b.tradeId⟩

def StagedTrade.identity (a : StagedTrade) : TradeIdentity := ⟨a.venue, a.venueSymbol, a.aggTradeId⟩

/-- The trades a Silver writer reads: the accepted rows of its window, or its staged rows. -/
def Statement.Offers (st : Statement) (i : TradeIdentity) : Prop :=
  (∃ now lookbackDays bronze, st = .mergeSilverTrades now lookbackDays bronze ∧
    ∃ b ∈ bronze, accepted now lookbackDays b = true ∧ b.identity = i) ∨
  (∃ now staging, st = .mergeSilverFromArchive now staging ∧ ∃ a ∈ staging, a.identity = i)

/-- A trade some committed writer of the run has read: with a key from Bronze, any from staging. -/
def Offered (run : List Statement) (i : TradeIdentity) : Prop :=
  ∃ pre st post, run = pre ++ st :: post ∧ (Lake.empty.run hexMd5 pre).commits hexMd5 st = true ∧ st.Offers i ∧
    (fullKey i.key = true ∨ ∃ now staging, st = .mergeSilverFromArchive now staging)

/-- The trade is the first of its `(venue, trade_id)` among the rows a Silver writer numbers. -/
def Statement.Keeps (st : Statement) (i : TradeIdentity) : Prop :=
  (∃ now lookbackDays bronze, st = .mergeSilverTrades now lookbackDays bronze ∧
    ∃ b, IsFirst BronzeRow.key BronzeRow.ingestTsUs (bronze.filter (accepted now lookbackDays)) b ∧ b.identity = i) ∨
  (∃ now staging rows, st = .mergeSilverFromArchive now staging ∧ staging.mapM (archiveRow now) = .ok rows ∧
    ∃ s, IsFirst SilverRow.key SilverRow.eventTsUs rows s ∧ s.identity = i)

/-- Some committed writer of the run keeps the trade. -/
def Kept (run : List Statement) (i : TradeIdentity) : Prop :=
  ∃ pre st post, run = pre ++ st :: post ∧ (Lake.empty.run hexMd5 pre).commits hexMd5 st = true ∧ st.Keeps i

theorem silverOf_identity {b : BronzeRow} {s : SilverRow} (h : silverOf b = .ok s) : s.identity = b.identity := by
  obtain ⟨hv, hsym, -, ht, -⟩ := silverOf_ok h
  unfold SilverRow.identity BronzeRow.identity
  rw [hv, hsym, ht]

theorem archiveRow_identity {now : Int} {a : StagedTrade} {s : SilverRow} (h : archiveRow now a = .ok s) :
    s.identity = a.identity := by
  obtain ⟨hv, hsym, -, ht, -⟩ := archiveRow_ok h
  unfold SilverRow.identity StagedTrade.identity
  rw [hv, hsym, ht]

/-- **The trades a writer keeps are those of its source.** -/
theorem keeps_iff (st : Statement) (i : TradeIdentity) :
    st.Keeps i ↔ ∃ source, st.SilverSource source ∧ ∃ s ∈ source, s.identity = i := by
  constructor
  · rintro (⟨now, lookbackDays, bronze, rfl, b, hfirst, rfl⟩ | ⟨now, staging, rows, rfl, hrows, s, hfirst, rfl⟩)
    · obtain ⟨source, hsource, -⟩ := mergeSilverTrades_ok now lookbackDays bronze []
      obtain ⟨s, hs, hbs⟩ := (mapM_ok hsource).1 b ((mem_rowNumberOne_iff _ _ _ b).2 hfirst)
      exact ⟨source, Or.inl ⟨now, lookbackDays, bronze, rfl, hsource⟩, s, hs, silverOf_identity hbs⟩
    · exact ⟨_, Or.inr ⟨now, staging, rows, rfl, hrows, rfl⟩, s, (mem_rowNumberOne_iff _ _ _ s).2 hfirst, rfl⟩
  · rintro ⟨source, ⟨now, lookbackDays, bronze, rfl, hsource⟩ | ⟨now, staging, rows, rfl, hrows, rfl⟩, s, hs, rfl⟩
    · obtain ⟨b, hb, hbs⟩ := (mapM_ok hsource).2 s hs
      have hfirst := (mem_rowNumberOne_iff _ _ _ b).1 hb
      exact Or.inl ⟨now, lookbackDays, bronze, rfl, b, hfirst, (silverOf_identity hbs).symm⟩
    · exact Or.inr ⟨now, staging, rows, rfl, hrows, s, (mem_rowNumberOne_iff _ _ _ s).1 hs, rfl⟩

theorem source_offers {st : Statement} {source : List SilverRow} (h : st.SilverSource source) {s : SilverRow}
    (hs : s ∈ source) : st.Offers s.identity := by
  rcases h with ⟨now, lookbackDays, bronze, rfl, hsource⟩ | ⟨now, staging, rows, rfl, hrows, rfl⟩
  · obtain ⟨b, hb, hacc, hbs⟩ := accepted_of_mem_source hsource hs
    exact Or.inl ⟨now, lookbackDays, bronze, rfl, b, hb, hacc, (silverOf_identity hbs).symm⟩
  · obtain ⟨a, ha, has⟩ := (mapM_ok hrows).2 s (mem_of_mem_rowNumberOne _ _ hs)
    exact Or.inr ⟨now, staging, rfl, a, ha, (archiveRow_identity has).symm⟩

theorem offers_covered {lake : Lake} {st : Statement} (hc : lake.commits hexMd5 st = true) {i : TradeIdentity}
    (h : st.Offers i) : ∃ s ∈ (lake.step hexMd5 st).silver, s.key = i.key := by
  rcases h with ⟨now, lookbackDays, bronze, rfl, b, hb, hacc, rfl⟩ | ⟨now, staging, rfl, a, ha, rfl⟩
  · obtain ⟨source, hsource, -⟩ := lake.step_mergeSilverTrades hexMd5 now lookbackDays bronze
    obtain ⟨s, hs, hsb⟩ := source_of_accepted hsource hb hacc
    obtain ⟨t, ht, hts⟩ := Lake.step_covers hexMd5 (Or.inl ⟨now, lookbackDays, bronze, rfl, hsource⟩) hc hs
    exact ⟨t, ht, hts.trans hsb⟩
  · obtain ⟨rows, hrows, -⟩ := Lake.step_mergeSilverFromArchive hexMd5 hc
    obtain ⟨k, hk, hka⟩ := source_of_staged hrows ha
    obtain ⟨t, ht, htk⟩ := Lake.step_covers hexMd5 (Or.inr ⟨now, staging, rows, rfl, hrows, rfl⟩) hc hk
    exact ⟨t, ht, htk.trans hka⟩

/-- **Every Silver row is one a committed writer kept.** -/
theorem silver_kept {run : List Statement} {s : SilverRow} (h : s ∈ (Lake.empty.run hexMd5 run).silver) :
    ∃ pre st post, run = pre ++ st :: post ∧ (Lake.empty.run hexMd5 pre).commits hexMd5 st = true ∧
      ∃ source, st.SilverSource source ∧ s ∈ source := by
  have hstep : ∀ (lake : Lake) (st : Statement) (s : SilverRow), s ∈ (lake.step hexMd5 st).silver →
      s ∈ lake.silver ∨ (lake.commits hexMd5 st = true ∧ ∃ source, st.SilverSource source ∧ s ∈ source) := by
    intro lake st s h
    rcases lake.step_silver hexMd5 st with ⟨source, hsource, -, hc, hsilver⟩ | hperm
    · rw [hsilver] at h
      rcases List.mem_append.1 h with h | h
      · exact Or.inl h
      · exact Or.inr ⟨hc, source, hsource, (MergeInto.mem_inserted.1 h).1⟩
    · exact Or.inl (hperm.mem_iff.1 h)
  have hgained := run_gained (A := fun (lake : Lake) s => s ∈ lake.silver)
    (N := fun lake st s => lake.commits hexMd5 st = true ∧ ∃ source, st.SilverSource source ∧ s ∈ source) hstep run h
  rcases hgained with h | hgained
  · cases h
  · exact hgained

theorem kept_in_silver {run : List Statement} {i : TradeIdentity} (hf : fullKey i.key = false)
    (h : Kept hexMd5 run i) : ∃ s ∈ (Lake.empty.run hexMd5 run).silver, s.identity = i := by
  obtain ⟨pre, st, post, hrun, hc, hkeeps⟩ := h
  obtain ⟨source, hsource, s, hs, rfl⟩ := (keeps_iff st i).1 hkeeps
  refine ⟨s, ?_, rfl⟩
  rw [hrun, Lake.run_append, Lake.run_cons]
  refine Lake.mem_run_silver hexMd5 ?_
  rw [Lake.step_of_source hexMd5 hsource hc]
  exact List.mem_append_right _ (silverMerge_keyed.inserted_iff.2 ⟨hs, fun hfs => absurd (hfs.symm.trans hf) (by decide)⟩)

theorem uniqueKeys_step {lake : Lake} (h : UniqueKeys SilverRow.key fullKey lake.silver) (st : Statement) :
    UniqueKeys SilverRow.key fullKey (lake.step hexMd5 st).silver := by
  rcases lake.step_silver hexMd5 st with ⟨source, -, hnodup, -, hsilver⟩ | hperm
  · rw [hsilver, ← MergeInto.merged_insert silverMerge_whenMatched]
    exact silverMerge_keyed.uniqueKeys_of_unique (fun _ _ => rfl) (uniqueKeys_of_nodup hnodup) h
  · exact (hperm.pairwise_iff (fun hab he => by rw [he]; exact hab he.symm)).2 h

theorem uniqueKeys_run (run : List Statement) :
    UniqueKeys SilverRow.key fullKey (Lake.empty.run hexMd5 run).silver :=
  run_invariant (I := fun lake : Lake => UniqueKeys SilverRow.key fullKey lake.silver)
    (fun _ st h => uniqueKeys_step hexMd5 h st) run List.Pairwise.nil

theorem silver_row_unique {run : List Statement} {s t : SilverRow} (hs : s ∈ (Lake.empty.run hexMd5 run).silver)
    (ht : t ∈ (Lake.empty.run hexMd5 run).silver) (hf : fullKey s.key = true) (hk : s.key = t.key) : s = t := by
  have hu := uniqueKeys_run hexMd5 run
  have hs' := rowOf_eq_of_mem hu hs hf
  have ht' := rowOf_eq_of_mem hu ht (by rw [← hk]; exact hf)
  rw [hk, ht'] at hs'
  exact (Option.some.inj hs').symm

/-- A trade with a full key has its row when no other symbol's trade has its key. -/
theorem offered_in_silver {run : List Statement} {i : TradeIdentity} (hf : fullKey i.key = true)
    (hsym : ∀ j, Offered hexMd5 run j → i.key = j.key → i.venueSymbol = j.venueSymbol) (hi : Offered hexMd5 run i) :
    ∃ s ∈ (Lake.empty.run hexMd5 run).silver, s.identity = i := by
  obtain ⟨pre, st, post, hrun, hc, hoff, -⟩ := hi
  obtain ⟨s, hs, hsk⟩ := offers_covered hexMd5 hc hoff
  have hin : s ∈ (Lake.empty.run hexMd5 run).silver := by
    rw [hrun, Lake.run_append, Lake.run_cons]
    exact Lake.mem_run_silver hexMd5 hs
  have hs' : Offered hexMd5 run s.identity := by
    obtain ⟨pre', st', post', hrun', hc', source, hsource, hmem⟩ := silver_kept hexMd5 hin
    refine ⟨pre', st', post', hrun', hc', source_offers hsource hmem, Or.inl ?_⟩
    rw [show s.identity.key = s.key from rfl, hsk]
    exact hf
  have hv := hsym s.identity hs' hsk.symm
  refine ⟨s, hin, ?_⟩
  obtain ⟨iv, isym, it⟩ := i
  obtain ⟨rfl, rfl⟩ := Prod.mk.inj hsk
  cases hv
  rfl

/-- **Every trade a run reads has its own Silver row exactly when** no two of them share a `(venue, trade_id)` under
different symbols, and those without one are each the first of it somewhere. -/
theorem offered_in_silver_iff (run : List Statement) :
    (∀ i, Offered hexMd5 run i → ∃ s ∈ (Lake.empty.run hexMd5 run).silver, s.identity = i) ↔
      (∀ i j, Offered hexMd5 run i → Offered hexMd5 run j → fullKey i.key = true → i.key = j.key →
        i.venueSymbol = j.venueSymbol) ∧
      ∀ i, Offered hexMd5 run i → fullKey i.key = false → Kept hexMd5 run i := by
  constructor
  · intro h
    refine ⟨fun i j hi hj hf hk => ?_, fun i hi _ => ?_⟩
    · obtain ⟨s, hs, rfl⟩ := h i hi
      obtain ⟨t, ht, rfl⟩ := h j hj
      rw [silver_row_unique hexMd5 hs ht hf hk]
    · obtain ⟨s, hs, rfl⟩ := h i hi
      obtain ⟨pre, st, post, hrun, hc, source, hsource, hmem⟩ := silver_kept hexMd5 hs
      exact ⟨pre, st, post, hrun, hc, (keeps_iff st s.identity).2 ⟨source, hsource, s, hmem, rfl⟩⟩
  · rintro ⟨hsym, hkept⟩ i hi
    cases hf : fullKey i.key with
    | true => exact offered_in_silver hexMd5 hf (fun j hj hk => hsym i j hi hj hf hk) hi
    | false => exact kept_in_silver hexMd5 hf (hkept i hi hf)

def bitcoinTrade : BronzeRow := { keylessTrade with tradeId := some "7" }

def etherTrade : BronzeRow := { bitcoinTrade with venueSymbol := some "ETHUSDT", instrumentId := some "ETH-USD" }

/-- Two symbols' trades of one aggTrade id, in one micro-batch: one row. -/
theorem symbols_share_an_id :
    ¬ ∀ (hexMd5 : String → String) (run : List Statement) (i : TradeIdentity), Offered hexMd5 run i →
      ∃ s ∈ (Lake.empty.run hexMd5 run).silver, s.identity = i := by
  intro h
  have hoff : Offered id [.mergeSilverTrades 1728000900000 1 [bitcoinTrade, etherTrade]] etherTrade.identity :=
    ⟨[], _, [], rfl, by decide, Or.inl ⟨_, _, _, rfl, etherTrade, by simp, by decide, rfl⟩, Or.inl (by decide)⟩
  obtain ⟨s, hs, hid⟩ := h id _ _ hoff
  have hall : ∀ s ∈ (Lake.empty.run id [.mergeSilverTrades 1728000900000 1 [bitcoinTrade, etherTrade]]).silver,
      s.identity ≠ etherTrade.identity := by decide
  exact hall s hs hid

end Awsnative
