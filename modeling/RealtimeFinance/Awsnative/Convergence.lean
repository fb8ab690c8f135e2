import RealtimeFinance.Awsnative.SilverKeys
/-!
# Convergence — the stream's and the archive's copies of a trade, whichever lands first

What Silver says of a trade is `SilverRow.facts`: every column the two writers share, so not the ingest time, the
sequence or the source.  When the copies that are read agree on them, a full key stands for one set of facts and it no
longer matters which copy was inserted: a run holds what Silver held and what its statements offered (`holds_run_iff`),
in whatever order and however the Bronze rows were split (`stream_and_archive_converge`).
-/
namespace Awsnative

open Sql Runs

structure TradeFacts where
  venue : Option String
  venueSymbol : Option String
  instrumentId : Option String
  tradeId : Option String
  eventTsUs : Option Int
  price : Option (Decimal 38 18)
  size : Option (Decimal 38 18)
  side : Option String
  deriving DecidableEq

def TradeFacts.key (f : TradeFacts) : Option String × Option String := (f.venue, f.tradeId)

def SilverRow.facts (s : SilverRow) : TradeFacts :=
  ⟨s.venue, s.venueSymbol, s.instrumentId, s.tradeId, s.eventTsUs, s.price, s.size, s.side⟩

/-- The facts of the rows with a key. -/
def Holds (silver : List SilverRow) (f : TradeFacts) : Prop := ∃ s ∈ silver, fullKey s.key = true ∧ s.facts = f

/-- The facts of the accepted rows of Bronze with a key, as the merge would write them. -/
def BronzeOffers (now : Int) (lookbackDays : Nat) (bronze : List BronzeRow) (f : TradeFacts) : Prop :=
  ∃ b ∈ bronze, accepted now lookbackDays b = true ∧ ∃ s, silverOf b = .ok s ∧ fullKey s.key = true ∧ s.facts = f

/-- The facts of the staged rows with a key, where every row of staging casts. -/
def StagingOffers (now : Int) (staging : List StagedTrade) (f : TradeFacts) : Prop :=
  ∃ rows, staging.mapM (archiveRow now) = .ok rows ∧ Holds rows f

def Statement.OffersFacts (st : Statement) (f : TradeFacts) : Prop :=
  (∃ now lookbackDays bronze, st = .mergeSilverTrades now lookbackDays bronze ∧ BronzeOffers now lookbackDays bronze f) ∨
  (∃ now staging, st = .mergeSilverFromArchive now staging ∧ StagingOffers now staging f)

/-- **One set of facts for each key.** -/
def OneFact (facts : TradeFacts → Prop) : Prop := ∀ f g, facts f → facts g → f.key = g.key → f = g

variable (hexMd5 : String → String)

/-- **A staging that casts commits**: the merge's source has distinct keys. -/
theorem Lake.commits_mergeSilverFromArchive (lake : Lake) {now : Int} {staging : List StagedTrade}
    {rows : List SilverRow} (hrows : staging.mapM (archiveRow now) = .ok rows) :
    lake.commits hexMd5 (.mergeSilverFromArchive now staging) = true := by
  have hrun := silverMerge_keyed.run_eq_of_unique
    (uniqueKeys_of_nodup (rowNumberOne_nodup SilverRow.key SilverRow.eventTsUs rows)) lake.silver
  have hmerge : mergeSilverFromArchive now staging lake.silver =
      silverMerge.run (rowNumberOne SilverRow.key SilverRow.eventTsUs rows) lake.silver := by
    unfold mergeSilverFromArchive
    rw [hrows]
    rfl
  unfold Lake.commits Lake.exec
  simp only [hmerge, hrun]
  rfl

/-- What a writer offers, a row of its source has the key of. -/
theorem offersFacts_source (lake : Lake) {st : Statement} {f : TradeFacts} (h : st.OffersFacts f) :
    lake.commits hexMd5 st = true ∧ ∃ source, st.SilverSource source ∧ ∃ s ∈ source, fullKey s.key = true ∧ s.key = f.key := by
  rcases h with ⟨now, lookbackDays, bronze, rfl, b, hb, hacc, s, hbs, hf, rfl⟩ |
    ⟨now, staging, rfl, rows, hrows, r, hr, hf, rfl⟩
  · obtain ⟨source, hsource, -, hcommits, -⟩ := lake.step_mergeSilverTrades hexMd5 now lookbackDays bronze
    obtain ⟨t, ht, htb⟩ := source_of_accepted hsource hb hacc
    have hkey : t.key = s.key := htb.trans (silverOf_key hbs).symm
    refine ⟨hcommits, source, Or.inl ⟨now, lookbackDays, bronze, rfl, hsource⟩, t, ht, ?_, hkey⟩
    rw [hkey]
    exact hf
  · obtain ⟨k, hk, hkr, -⟩ := rowNumberOne_covers SilverRow.key SilverRow.eventTsUs rows r hr
    refine ⟨lake.commits_mergeSilverFromArchive hexMd5 hrows, _, Or.inr ⟨now, staging, rows, rfl, hrows, rfl⟩, k, hk, ?_, hkr⟩
    rw [hkr]
    exact hf

/-- A row of a writer's source with a key is one it offers. -/
theorem source_offersFacts {st : Statement} {source : List SilverRow} (h : st.SilverSource source) {s : SilverRow}
    (hs : s ∈ source) (hf : fullKey s.key = true) : st.OffersFacts s.facts := by
  rcases h with ⟨now, lookbackDays, bronze, rfl, hsource⟩ | ⟨now, staging, rows, rfl, hrows, rfl⟩
  · obtain ⟨b, hb, hacc, hbs⟩ := accepted_of_mem_source hsource hs
    exact Or.inl ⟨now, lookbackDays, bronze, rfl, b, hb, hacc, s, hbs, hf, rfl⟩
  · exact Or.inr ⟨now, staging, rfl, rows, hrows, s, mem_of_mem_rowNumberOne _ _ hs, hf, rfl⟩

/-- **A step adds what its statement offers**, where that and what Silver holds have one set of facts for each key. -/
theorem holds_step_iff {facts : TradeFacts → Prop} (hone : OneFact facts) {lake : Lake} {st : Statement}
    (hlake : ∀ f, Holds lake.silver f → facts f) (hst : ∀ f, st.OffersFacts f → facts f) (f : TradeFacts) :
    Holds (lake.step hexMd5 st).silver f ↔ Holds lake.silver f ∨ st.OffersFacts f := by
  have hsound : ∀ g, Holds (lake.step hexMd5 st).silver g → Holds lake.silver g ∨ st.OffersFacts g := by
    rintro g ⟨s, hs, hf, rfl⟩
    rcases lake.step_silver hexMd5 st with ⟨source, hsource, -, -, hsilver⟩ | hperm
    · rw [hsilver] at hs
      rcases List.mem_append.1 hs with hs | hs
      · exact Or.inl ⟨s, hs, hf, rfl⟩
      · exact Or.inr (source_offersFacts hsource (MergeInto.mem_inserted.1 hs).1 hf)
    · exact Or.inl ⟨s, hperm.mem_iff.1 hs, hf, rfl⟩
  refine ⟨hsound f, ?_⟩
  rintro (⟨s, hs, hf, rfl⟩ | hoffer)
  · exact ⟨s, Lake.mem_step_silver hexMd5 hs, hf, rfl⟩
  · obtain ⟨hcommits, source, hsource, s, hs, hfull, hkey⟩ := offersFacts_source hexMd5 lake hoffer
    obtain ⟨t, ht, hts⟩ := Lake.step_covers hexMd5 hsource hcommits hs
    have hfull' : fullKey t.key = true := by rw [hts]; exact hfull
    have hheld : facts t.facts := (hsound t.facts ⟨t, ht, hfull', rfl⟩).elim (hlake _) (hst _)
    have hsame : t.facts = f := hone t.facts f hheld (hst f hoffer) (hts.trans hkey)
    exact ⟨t, ht, hfull', hsame⟩

/-- **A run holds what Silver held and what its statements offered**, in any order. -/
theorem holds_run_iff {facts : TradeFacts → Prop} (hone : OneFact facts) :
    ∀ {run : List Statement} {lake : Lake}, (∀ f, Holds lake.silver f → facts f) →
      (∀ st ∈ run, ∀ f, st.OffersFacts f → facts f) → ∀ f,
      (Holds (lake.run hexMd5 run).silver f ↔ Holds lake.silver f ∨ ∃ st ∈ run, st.OffersFacts f)
  | [], lake, _, _, f => by simp [Lake.run]
  | st :: run, lake, hlake, hrun, f => by
    have hst : ∀ f, st.OffersFacts f → facts f := hrun st List.mem_cons_self
    have hstep := holds_step_iff hexMd5 hone hlake hst
    have hlake' : ∀ f, Holds (lake.step hexMd5 st).silver f → facts f := fun f h =>
      ((hstep f).1 h).elim (hlake f) (hst f)
    have ih := holds_run_iff hone hlake' (fun st' hst' => hrun st' (List.mem_cons_of_mem _ hst')) f
    rw [Lake.run_cons, ih, hstep f, or_assoc]
    refine or_congr_right ⟨?_, ?_⟩
    · rintro (hf | ⟨st', hst', hf⟩)
      · exact ⟨st, List.mem_cons_self, hf⟩
      · exact ⟨st', List.mem_cons_of_mem _ hst', hf⟩
    · rintro ⟨st', hst', hf⟩
      rcases List.mem_cons.1 hst' with rfl | hst'
      · exact Or.inl hf
      · exact Or.inr ⟨st', hst', hf⟩

/-- The rows of the three sources, with a key: Silver's, and what Bronze and staging write. -/
def Sources (now : Int) (lookbackDays : Nat) (silver : List SilverRow) (bronze : List BronzeRow)
    (staging : List StagedTrade) (f : TradeFacts) : Prop :=
  Holds silver f ∨ BronzeOffers now lookbackDays bronze f ∨ StagingOffers now staging f

theorem offersFacts_mergeSilverTrades {now : Int} {lookbackDays : Nat} {bronze : List BronzeRow} {f : TradeFacts} :
    (Statement.mergeSilverTrades now lookbackDays bronze).OffersFacts f ↔ BronzeOffers now lookbackDays bronze f := by
  constructor
  · rintro (⟨now', lookbackDays', bronze', hst, h⟩ | ⟨now', staging, hst, -⟩)
    · cases hst
      exact h
    · cases hst
  · exact fun h => Or.inl ⟨now, lookbackDays, bronze, rfl, h⟩

theorem offersFacts_mergeSilverFromArchive {now : Int} {staging : List StagedTrade} {f : TradeFacts} :
    (Statement.mergeSilverFromArchive now staging).OffersFacts f ↔ StagingOffers now staging f := by
  constructor
  · rintro (⟨now', lookbackDays', bronze', hst, -⟩ | ⟨now', staging', hst, h⟩)
    · cases hst
    · cases hst
      exact h
  · exact fun h => Or.inr ⟨now, staging, rfl, h⟩

/-- Micro-batches over parts of Bronze, and the archive's merge: the run holds the sources' facts. -/
theorem holds_parts_iff {now : Int} {lookbackDays : Nat} {lake : Lake} {bronze : List BronzeRow}
    {staging : List StagedTrade} (hone : OneFact (Sources now lookbackDays lake.silver bronze staging))
    {parts : List (List BronzeRow)} (hparts : ∀ b, b ∈ bronze ↔ ∃ part ∈ parts, b ∈ part) (run : List Statement)
    (hrun : ∀ st, st ∈ run ↔ st = .mergeSilverFromArchive now staging ∨
      ∃ part ∈ parts, st = .mergeSilverTrades now lookbackDays part) (f : TradeFacts) :
    Holds (lake.run hexMd5 run).silver f ↔ Sources now lookbackDays lake.silver bronze staging f := by
  have hbronze : BronzeOffers now lookbackDays bronze f ↔ ∃ part ∈ parts, BronzeOffers now lookbackDays part f := by
    constructor
    · rintro ⟨b, hb, h⟩
      obtain ⟨part, hpart, hb⟩ := (hparts b).1 hb
      exact ⟨part, hpart, b, hb, h⟩
    · rintro ⟨part, hpart, b, hb, h⟩
      exact ⟨b, (hparts b).2 ⟨part, hpart, hb⟩, h⟩
  have hoffers : ∀ st ∈ run, ∀ f, st.OffersFacts f → Sources now lookbackDays lake.silver bronze staging f := by
    intro st hst g hg
    rcases (hrun st).1 hst with rfl | ⟨part, hpart, rfl⟩
    · exact Or.inr (Or.inr (offersFacts_mergeSilverFromArchive.1 hg))
    · obtain ⟨b, hb, h⟩ := offersFacts_mergeSilverTrades.1 hg
      exact Or.inr (Or.inl ⟨b, (hparts b).2 ⟨part, hpart, hb⟩, h⟩)
  rw [holds_run_iff hexMd5 hone (fun g hg => Or.inl hg) hoffers]
  refine or_congr_right ⟨?_, ?_⟩
  · rintro ⟨st, hst, hf⟩
    rcases (hrun st).1 hst with rfl | ⟨part, hpart, rfl⟩
    · exact Or.inr (offersFacts_mergeSilverFromArchive.1 hf)
    · exact Or.inl (hbronze.2 ⟨part, hpart, offersFacts_mergeSilverTrades.1 hf⟩)
  · rintro (hf | hf)
    · obtain ⟨part, hpart, hf⟩ := hbronze.1 hf
      exact ⟨_, (hrun _).2 (Or.inr ⟨part, hpart, rfl⟩), offersFacts_mergeSilverTrades.2 hf⟩
    · exact ⟨_, (hrun _).2 (Or.inl rfl), offersFacts_mergeSilverFromArchive.2 hf⟩

/-- **Stream and archive converge, whichever lands first**: when the rows that Silver, Bronze and staging have of a key
agree, both orders of the two merges hold the same facts, and so does any split of Bronze over micro-batches with the
archive's merge anywhere among them. -/
theorem stream_and_archive_converge (now : Int) (lookbackDays : Nat) (lake : Lake) (bronze : List BronzeRow)
    (staging : List StagedTrade) (hone : OneFact (Sources now lookbackDays lake.silver bronze staging)) :
    (∀ f, Holds (lake.run hexMd5 [.mergeSilverTrades now lookbackDays bronze, .mergeSilverFromArchive now staging]).silver f ↔
      Holds (lake.run hexMd5 [.mergeSilverFromArchive now staging, .mergeSilverTrades now lookbackDays bronze]).silver f) ∧
    ∀ before after : List (List BronzeRow), (∀ b, b ∈ bronze ↔ ∃ part ∈ before ++ after, b ∈ part) →
      ∀ f, Holds (lake.run hexMd5 (before.map (.mergeSilverTrades now lookbackDays) ++
          .mergeSilverFromArchive now staging :: after.map (.mergeSilverTrades now lookbackDays))).silver f ↔
        Holds (lake.run hexMd5
          [.mergeSilverTrades now lookbackDays bronze, .mergeSilverFromArchive now staging]).silver f := by
  have hwhole : ∀ b, b ∈ bronze ↔ ∃ part ∈ [bronze], b ∈ part := fun b => by simp
  have hstream := holds_parts_iff hexMd5 hone hwhole
    [.mergeSilverTrades now lookbackDays bronze, .mergeSilverFromArchive now staging] (fun st => by simp [or_comm])
  have harchive := holds_parts_iff hexMd5 hone hwhole
    [.mergeSilverFromArchive now staging, .mergeSilverTrades now lookbackDays bronze] (fun st => by simp)
  refine ⟨fun f => (hstream f).trans (harchive f).symm, fun before after hparts f => ?_⟩
  have hsplit := holds_parts_iff hexMd5 hone hparts
    (before.map (.mergeSilverTrades now lookbackDays) ++
      .mergeSilverFromArchive now staging :: after.map (.mergeSilverTrades now lookbackDays))
    (fun st => by
      simp only [List.mem_append, List.mem_map, List.mem_cons, or_and_right, exists_or]
      constructor
      · rintro (⟨part, hpart, rfl⟩ | rfl | ⟨part, hpart, rfl⟩)
        · exact Or.inr (Or.inl ⟨part, hpart, rfl⟩)
        · exact Or.inl rfl
        · exact Or.inr (Or.inr ⟨part, hpart, rfl⟩)
      · rintro (rfl | ⟨part, hpart, rfl⟩ | ⟨part, hpart, rfl⟩)
        · exact Or.inr (Or.inl rfl)
        · exact Or.inl ⟨part, hpart, rfl⟩
        · exact Or.inr (Or.inr ⟨part, hpart, rfl⟩))
  exact (hsplit f).trans (hstream f).symm

/-- A stream trade. -/
def streamCopy : BronzeRow := { keylessTrade with tradeId := some "7" }

/-- The archive's copy of it, its amounts written with other digits. -/
def archiveCopy : StagedTrade :=
  { instrumentId := some "BTC-USD", venue := some "binance", venueSymbol := some "BTCUSDT", aggTradeId := some "7"
    price := some "60000.50", quantity := some "0.250", eventTsUs := some "1728000600000000", side := some "BUY" }

def copyFacts : TradeFacts :=
  ⟨some "binance", some "BTCUSDT", some "BTC-USD", some "7", some 1728000600000000,
    tryCastDecimal 38 18 (some "60000.5"), tryCastDecimal 38 18 (some "0.25"), some "BUY"⟩

theorem stream_and_archive_converge_copies :
    Holds (Lake.empty.run id [.mergeSilverTrades 1728000900000 1 [streamCopy],
        .mergeSilverFromArchive 1728000900000 [archiveCopy]]).silver copyFacts ↔
      Holds (Lake.empty.run id [.mergeSilverFromArchive 1728000900000 [archiveCopy],
        .mergeSilverTrades 1728000900000 1 [streamCopy]]).silver copyFacts := by
  have hstream : (silverOf streamCopy).toOption.map SilverRow.facts = some copyFacts := by decide
  have harchive : ([archiveCopy].mapM (archiveRow 1728000900000)).toOption.map (List.map SilverRow.facts) =
      some [copyFacts] := by decide
  have hall : ∀ f, Sources 1728000900000 1 [] [streamCopy] [archiveCopy] f → f = copyFacts := by
    rintro f (⟨s, hs, -⟩ | ⟨b, hb, -, s, hbs, -, rfl⟩ | ⟨rows, hrows, s, hs, -, rfl⟩)
    · cases hs
    · rw [List.mem_singleton.1 hb] at hbs
      rw [hbs] at hstream
      exact Option.some.inj hstream
    · rw [hrows] at harchive
      have hmem : s.facts ∈ rows.map SilverRow.facts := List.mem_map_of_mem hs
      have hrows' : rows.map SilverRow.facts = [copyFacts] := Option.some.inj harchive
      rw [hrows'] at hmem
      exact List.mem_singleton.1 hmem
  have hone : OneFact (Sources 1728000900000 1 [] [streamCopy] [archiveCopy]) := by
    intro f g hf hg _
    rw [hall f hf, hall g hg]
  exact (stream_and_archive_converge id 1728000900000 1 Lake.empty [streamCopy] [archiveCopy] hone).1 copyFacts

end Awsnative
