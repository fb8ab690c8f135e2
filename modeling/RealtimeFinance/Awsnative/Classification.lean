import RealtimeFinance.Awsnative.SilverKeys
/-!
# Classification — which table a Bronze row ends in, over a run of micro-batches

Within one statement the two halves of the window are complements.  Over a run they need not be: the window keeps a row
for up to 48 hours, and the contract admits a stream row for 24.  Nor does a row that is classified one way end in that
table: both merges number the rows of a `(venue, trade_id)` and keep the first.  `partitioned_iff` says when a run puts
every row in one table: each row is read on one side of its contract's clock bounds, and a statement writes its facts to
one of the tables and none to the other.
-/
namespace Awsnative

open Sql Runs

def Statement.classifies : Statement → Option (Int × Nat × List BronzeRow)
  | .mergeSilverTrades now lookbackDays bronze     => some (now, lookbackDays, bronze)
  | .mergeSilverQuarantine now lookbackDays bronze => some (now, lookbackDays, bronze)
  | _                                              => none

def Statement.Reads (st : Statement) (now : Int) (b : BronzeRow) : Prop :=
  ∃ lookbackDays bronze, st.classifies = some (now, lookbackDays, bronze) ∧ b ∈ bronze ∧
    inWindow now lookbackDays b = true

def ClassifiedAlike (run : List Statement) (b : BronzeRow) : Prop :=
  ∀ st ∈ run, ∀ st' ∈ run, ∀ now now', st.Reads now b → st'.Reads now' b → valid now b = valid now' b

variable (hexMd5 : String → String)

def InsertedIntoSilver (run : List Statement) (b : BronzeRow) : Prop :=
  ∃ pre now lookbackDays bronze post, run = pre ++ .mergeSilverTrades now lookbackDays bronze :: post ∧
    b ∈ silverSource now lookbackDays bronze ∧
    ∃ s, silverOf b = .ok s ∧ ∀ t ∈ (Lake.empty.run hexMd5 pre).silver, silverMerge.hits s t = false

def InsertedIntoQuarantine (run : List Statement) (b : BronzeRow) : Prop :=
  ∃ pre now lookbackDays bronze post, run = pre ++ .mergeSilverQuarantine now lookbackDays bronze :: post ∧
    (Lake.empty.run hexMd5 pre).commits hexMd5 (.mergeSilverQuarantine now lookbackDays bronze) = true ∧
    b ∈ quarantineSource now lookbackDays bronze ∧
    ∀ t ∈ (Lake.empty.run hexMd5 pre).quarantine, quarantineMerge.hits (quarantineOf hexMd5 now b) t = false

def SeenByBoth (run : List Statement) (b : BronzeRow) : Prop :=
  (∃ now lookbackDays bronze, Statement.mergeSilverTrades now lookbackDays bronze ∈ run ∧ b ∈ bronze ∧
    inWindow now lookbackDays b = true) ∧
  (∃ pre now lookbackDays bronze post, run = pre ++ .mergeSilverQuarantine now lookbackDays bronze :: post ∧
    (Lake.empty.run hexMd5 pre).commits hexMd5 (.mergeSilverQuarantine now lookbackDays bronze) = true ∧
    b ∈ bronze ∧ inWindow now lookbackDays b = true)

def HeldInSilver (lake : Lake) (k : Option String × Option String) : Prop := ∃ s ∈ lake.silver, s.key = k

/-- The row's `row_key` is stored. -/
def StoredInQuarantine (lake : Lake) (b : BronzeRow) : Prop := ∃ q ∈ lake.quarantine, q.rowKey = hexMd5 (rawText b.raw)

/-- A Silver row of the Bronze row's raw tuple, under its symbol. -/
def SilverRow.Carries (s : SilverRow) (b : BronzeRow) : Prop :=
  s.identity = b.identity ∧ s.eventTsUs = b.eventTsUs ∧ castDecimal 38 18 b.price = .ok s.price ∧
    castDecimal 38 18 b.size = .ok s.size

def InSilver (lake : Lake) (b : BronzeRow) : Prop := ∃ s ∈ lake.silver, s.Carries b

def InQuarantine (lake : Lake) (b : BronzeRow) : Prop :=
  ∃ q ∈ lake.quarantine, q.raw = b.raw ∧ q.venueSymbol = b.venueSymbol

/-- **Every row with a key is classified one way and ends in exactly one of the two tables.** -/
structure Partitioned (run : List Statement) : Prop where
  alike : ∀ b, fullKey b.key = true → ClassifiedAlike run b
  notInBoth : ∀ b, fullKey b.key = true → ¬ (InsertedIntoSilver hexMd5 run b ∧ InsertedIntoQuarantine hexMd5 run b)
  inOne : ∀ b, fullKey b.key = true → SeenByBoth hexMd5 run b →
    Xor (InSilver (Lake.empty.run hexMd5 run) b) (InQuarantine (Lake.empty.run hexMd5 run) b)

/-- A statement that writes the row to Silver: it numbers a row of its raw tuple 1 of their key, which Silver lacks. -/
def WritesToSilver (b : BronzeRow) (lake : Lake) (st : Statement) : Prop :=
  lake.commits hexMd5 st = true ∧ (∃ source, st.SilverSource source ∧ ∃ s ∈ source, s.Carries b) ∧
    ¬ HeldInSilver lake b.key

/-- A statement that writes the row to quarantine: it numbers a rejected row of its raw tuple 1 of their key, and the
`row_key` is new. -/
def WritesToQuarantine (b : BronzeRow) (lake : Lake) (st : Statement) : Prop :=
  lake.commits hexMd5 st = true ∧
    (∃ now lookbackDays bronze, st = .mergeSilverQuarantine now lookbackDays bronze ∧
      ∃ r, IsFirst BronzeRow.key BronzeRow.ingestTsUs (bronze.filter (rejected now lookbackDays)) r ∧
        r.raw = b.raw ∧ r.venueSymbol = b.venueSymbol) ∧
    ¬ StoredInQuarantine hexMd5 lake b

/-- **One table is written**: some statement of the run writes the row to one of them, and none writes it to the other. -/
def WrittenOnce (run : List Statement) (b : BronzeRow) : Prop :=
  Xor (SomeStep (Lake.step hexMd5) (WritesToSilver hexMd5 b) Lake.empty run)
    (SomeStep (Lake.step hexMd5) (WritesToQuarantine hexMd5 b) Lake.empty run)

/-- Where a row's event puts a clock: no earlier than a minute before it, no later than the source's age after it. -/
def Within (b : BronzeRow) (e now : Int) : Prop := e - 60000000 ≤ now * 1000 ∧ now * 1000 ≤ e + maxAge b.source * 1000

/-- **The run reads `b` on one side of its contract's clock bounds**: only at clocks within them, or only at clocks
outside them.  A row whose price, size or event time fails at any clock is outside at all. -/
def OnOneSide (run : List Statement) (b : BronzeRow) : Prop :=
  positiveAmounts b → ∀ e, b.eventTsUs = some e →
    (∀ st ∈ run, ∀ now, st.Reads now b → Within b e now) ∨ (∀ st ∈ run, ∀ now, st.Reads now b → ¬ Within b e now)

theorem classifiedAlike_iff (run : List Statement) (b : BronzeRow) : ClassifiedAlike run b ↔ OnOneSide run b := by
  constructor
  · intro halike hpos e he
    have hvalid : ∀ now, valid now b = true ↔ Within b e now := fun now => by
      rw [validAt_iff]
      constructor
      · rintro ⟨-, e', he', hin⟩
        rw [he] at he'
        cases he'
        exact hin
      · intro hin
        exact ⟨hpos, e, he, hin⟩
    by_cases hex : ∃ st ∈ run, ∃ now, st.Reads now b ∧ Within b e now
    · obtain ⟨st, hst, now, hreads, hin⟩ := hex
      refine Or.inl (fun st' hst' now' hreads' => (hvalid now').1 ?_)
      rw [← halike st hst st' hst' now now' hreads hreads']
      exact (hvalid now).2 hin
    · exact Or.inr (fun st hst now hreads hin => hex ⟨st, hst, now, hreads, hin⟩)
  · intro hside st hst st' hst' now now' hreads hreads'
    rw [Bool.eq_iff_iff, validAt_iff, validAt_iff]
    refine and_congr_right (fun hpos => exists_congr (fun e => and_congr_right (fun he => ?_)))
    rcases hside hpos e he with hin | hout
    · exact ⟨fun _ => hin st' hst' now' hreads', fun _ => hin st hst now hreads⟩
    · exact ⟨fun h => absurd h (hout st hst now hreads), fun h => absurd h (hout st' hst' now' hreads')⟩

theorem silverSource_reads {now : Int} {lookbackDays : Nat} {bronze : List BronzeRow} {b : BronzeRow}
    (h : b ∈ silverSource now lookbackDays bronze) :
    (Statement.mergeSilverTrades now lookbackDays bronze).Reads now b ∧ valid now b = true := by
  obtain ⟨hb, hacc⟩ := List.mem_filter.1 (mem_of_mem_rowNumberOne _ _ h)
  obtain ⟨hwin, hvalid⟩ := (accepted_iff now lookbackDays b).1 hacc
  exact ⟨⟨lookbackDays, bronze, rfl, hb, hwin⟩, hvalid⟩

theorem quarantineSource_reads {now : Int} {lookbackDays : Nat} {bronze : List BronzeRow} {b : BronzeRow}
    (h : b ∈ quarantineSource now lookbackDays bronze) :
    (Statement.mergeSilverQuarantine now lookbackDays bronze).Reads now b ∧ valid now b = false := by
  obtain ⟨hb, hrej⟩ := List.mem_filter.1 (mem_of_mem_rowNumberOne _ _ h)
  obtain ⟨hwin, hvalid⟩ := (rejected_iff now lookbackDays b).1 hrej
  exact ⟨⟨lookbackDays, bronze, rfl, hb, hwin⟩, hvalid⟩

theorem not_inserted_into_both {run : List Statement} {b : BronzeRow} (h : ClassifiedAlike run b) :
    ¬ (InsertedIntoSilver hexMd5 run b ∧ InsertedIntoQuarantine hexMd5 run b) := by
  rintro ⟨⟨pre, now, lookbackDays, bronze, post, hrun, hsource, -⟩,
    ⟨pre', now', lookbackDays', bronze', post', hrun', -, hsource', -⟩⟩
  obtain ⟨hreads, hvalid⟩ := silverSource_reads hsource
  obtain ⟨hreads', hvalid'⟩ := quarantineSource_reads hsource'
  have hst : Statement.mergeSilverTrades now lookbackDays bronze ∈ run := by rw [hrun]; simp
  have hst' : Statement.mergeSilverQuarantine now' lookbackDays' bronze' ∈ run := by rw [hrun']; simp
  have := h _ hst _ hst' now now' hreads hreads'
  rw [hvalid, hvalid'] at this
  cases this

/-! ## A row that was read is in a table -/

/-- What a committed quarantine merge leaves: the rows it found, and those it numbered 1 of a new `row_key`. -/
theorem Lake.step_mergeSilverQuarantine {lake : Lake} {now : Int} {lookbackDays : Nat} {bronze : List BronzeRow}
    (hc : lake.commits hexMd5 (.mergeSilverQuarantine now lookbackDays bronze) = true) (q : QuarantineRow) :
    q ∈ (lake.step hexMd5 (.mergeSilverQuarantine now lookbackDays bronze)).quarantine ↔ q ∈ lake.quarantine ∨
      ∃ r ∈ quarantineSource now lookbackDays bronze, q = quarantineOf hexMd5 now r ∧
        ¬ StoredInQuarantine hexMd5 lake r := by
  obtain ⟨quarantine, hrun, he⟩ := bind_ok (Lake.exec_of_commits hexMd5 hc)
  have hstep : (lake.step hexMd5 (.mergeSilverQuarantine now lookbackDays bronze)).quarantine = quarantine := by
    rw [← Except.ok.inj he]
  rw [hstep, mergeSilverQuarantine_mem hexMd5 hrun]
  refine or_congr_right (exists_congr (fun r => and_congr_right (fun _ => and_congr_right (fun _ => ?_))))
  unfold StoredInQuarantine
  simp

/-- **What a step does to quarantine**: it is a committed quarantine merge, or the rows are the same. -/
theorem Lake.step_quarantine (lake : Lake) (st : Statement) :
    (∃ now lookbackDays bronze, st = .mergeSilverQuarantine now lookbackDays bronze ∧
      lake.commits hexMd5 st = true) ∨ (lake.step hexMd5 st).quarantine = lake.quarantine := by
  cases hc : lake.commits hexMd5 st with
  | false => exact Or.inr (by rw [Lake.step_of_not_commits hexMd5 hc])
  | true =>
    have he := Lake.exec_of_commits hexMd5 hc
    cases st with
    | mergeSilverQuarantine now lookbackDays bronze => exact Or.inl ⟨now, lookbackDays, bronze, rfl, rfl⟩
    | optimizeSilverTrades rewritten =>
      right
      rw [← Except.ok.inj he]
      split <;> rfl
    | mergeSilverTrades | mergeGoldBars1m | mergeSilverFromArchive | mergeGoldFromArchive =>
      obtain ⟨_, -, he⟩ := bind_ok he
      right
      rw [← Except.ok.inj he]

theorem Lake.mem_step_quarantine {lake : Lake} {st : Statement} {q : QuarantineRow} (h : q ∈ lake.quarantine) :
    q ∈ (lake.step hexMd5 st).quarantine := by
  rcases lake.step_quarantine hexMd5 st with ⟨now, lookbackDays, bronze, rfl, hc⟩ | hsame
  · exact (Lake.step_mergeSilverQuarantine hexMd5 hc q).2 (Or.inl h)
  · rw [hsame]
    exact h

theorem Lake.mem_run_quarantine {run : List Statement} {lake : Lake} {q : QuarantineRow} (h : q ∈ lake.quarantine) :
    q ∈ (lake.run hexMd5 run).quarantine :=
  run_invariant (I := fun lake : Lake => q ∈ lake.quarantine) (fun _ _ h => Lake.mem_step_quarantine hexMd5 h) run h

/-- **An accepted row's key is in Silver** from its statement on. -/
theorem accepted_held {pre post : List Statement} {now : Int} {lookbackDays : Nat} {bronze : List BronzeRow}
    {b : BronzeRow} (hb : b ∈ bronze) (hacc : accepted now lookbackDays b = true) :
    HeldInSilver (Lake.empty.run hexMd5 (pre ++ .mergeSilverTrades now lookbackDays bronze :: post)) b.key := by
  generalize hlake : Lake.empty.run hexMd5 pre = lake
  obtain ⟨source, hsource, -, hcommits, -⟩ := lake.step_mergeSilverTrades hexMd5 now lookbackDays bronze
  obtain ⟨s, hs, hsb⟩ := source_of_accepted hsource hb hacc
  obtain ⟨t, ht, hts⟩ := Lake.step_covers hexMd5 (Or.inl ⟨now, lookbackDays, bronze, rfl, hsource⟩) hcommits hs
  refine ⟨t, ?_, hts.trans hsb⟩
  rw [Lake.run_append, hlake, Lake.run_cons]
  exact Lake.mem_run_silver hexMd5 ht

/-- **The `row_key` of a rejected row that is numbered 1 is in quarantine** from its statement on, when that commits. -/
theorem rejected_held {pre post : List Statement} {now : Int} {lookbackDays : Nat} {bronze : List BronzeRow}
    (hc : (Lake.empty.run hexMd5 pre).commits hexMd5 (.mergeSilverQuarantine now lookbackDays bronze) = true)
    {r : BronzeRow} (hr : r ∈ quarantineSource now lookbackDays bronze) :
    StoredInQuarantine hexMd5
      (Lake.empty.run hexMd5 (pre ++ .mergeSilverQuarantine now lookbackDays bronze :: post)) r := by
  rw [Lake.run_append, Lake.run_cons]
  generalize Lake.empty.run hexMd5 pre = lake at hc ⊢
  have hheld : ∃ q ∈ (lake.step hexMd5 (.mergeSilverQuarantine now lookbackDays bronze)).quarantine,
      q.rowKey = hexMd5 (rawText r.raw) := by
    by_cases hstored : StoredInQuarantine hexMd5 lake r
    · obtain ⟨q, hq, hk⟩ := hstored
      exact ⟨q, Lake.mem_step_quarantine hexMd5 hq, hk⟩
    · refine ⟨quarantineOf hexMd5 now r, ?_, rfl⟩
      exact (Lake.step_mergeSilverQuarantine hexMd5 hc _).2 (Or.inr ⟨r, hr, rfl, hstored⟩)
  obtain ⟨q, hq, hk⟩ := hheld
  exact ⟨q, Lake.mem_run_quarantine hexMd5 hq, hk⟩

/-! ## A row that was written is in its table -/

theorem SilverRow.Carries.key {s : SilverRow} {b : BronzeRow} (h : s.Carries b) : s.key = b.key :=
  congrArg TradeIdentity.key h.1

/-- A row with a key that a step brings into Silver, the step wrote. -/
theorem inSilver_step (lake : Lake) (st : Statement) (b : BronzeRow) (h : InSilver (lake.step hexMd5 st) b) :
    InSilver lake b ∨ (fullKey b.key = true → WritesToSilver hexMd5 b lake st) := by
  obtain ⟨s, hs, hsb⟩ := h
  rcases lake.step_silver hexMd5 st with ⟨source, hsource, -, hc, hsilver⟩ | hperm
  · rw [hsilver] at hs
    rcases List.mem_append.1 hs with hold | hnew
    · exact Or.inl ⟨s, hold, hsb⟩
    · obtain ⟨hs, hlacks⟩ := silverMerge_keyed.inserted_iff.1 hnew
      rw [hsb.key] at hlacks
      refine Or.inr (fun hb => ⟨hc, ⟨source, hsource, s, hs, hsb⟩, fun hheld => ?_⟩)
      exact absurd (rowOf_isSome.2 hheld) (Bool.not_eq_true _ ▸ hlacks hb)
  · exact Or.inl ⟨s, hperm.mem_iff.1 hs, hsb⟩

/-- **A row with a key is in Silver exactly when** a statement of the run writes it there. -/
theorem inSilver_iff {run : List Statement} {b : BronzeRow} (hb : fullKey b.key = true) :
    InSilver (Lake.empty.run hexMd5 run) b ↔
      SomeStep (Lake.step hexMd5) (WritesToSilver hexMd5 b) Lake.empty run := by
  constructor
  · intro h
    rcases run_gained (inSilver_step hexMd5) run h with ⟨s, hs, -⟩ | ⟨pre, st, post, hrun, hwrites⟩
    · cases hs
    · exact ⟨pre, st, post, hrun, hwrites hb⟩
  · rintro ⟨pre, st, post, rfl, hwrites⟩
    have hwrites : WritesToSilver hexMd5 b (Lake.empty.run hexMd5 pre) st := hwrites
    obtain ⟨hc, ⟨source, hsource, s, hs, hsb⟩, hlacks⟩ := hwrites
    refine ⟨s, ?_, hsb⟩
    rw [Lake.run_append, Lake.run_cons]
    refine Lake.mem_run_silver hexMd5 ?_
    rw [Lake.step_of_source hexMd5 hsource hc]
    refine List.mem_append_right _ (silverMerge_keyed.inserted_iff.2 ⟨hs, fun _ => ?_⟩)
    rw [← Bool.not_eq_true, rowOf_isSome, hsb.key]
    exact hlacks

/-- A row that a step brings into quarantine, the step wrote. -/
theorem inQuarantine_step (lake : Lake) (st : Statement) (b : BronzeRow) (h : InQuarantine (lake.step hexMd5 st) b) :
    InQuarantine lake b ∨ WritesToQuarantine hexMd5 b lake st := by
  obtain ⟨q, hq, hraw, hsymbol⟩ := h
  rcases lake.step_quarantine hexMd5 st with ⟨now, lookbackDays, bronze, rfl, hc⟩ | hsame
  · rcases (Lake.step_mergeSilverQuarantine hexMd5 hc q).1 hq with hold | ⟨r, hr, rfl, hnew⟩
    · exact Or.inl ⟨q, hold, hraw, hsymbol⟩
    · have hrb : r.raw = b.raw := hraw
      refine Or.inr ⟨hc, ⟨now, lookbackDays, bronze, rfl, r, (mem_rowNumberOne_iff _ _ _ r).1 hr, hrb, hsymbol⟩, ?_⟩
      unfold StoredInQuarantine at hnew ⊢
      rw [← hrb]
      exact hnew
  · rw [hsame] at hq
    exact Or.inl ⟨q, hq, hraw, hsymbol⟩

/-- **A row is in quarantine exactly when** a statement of the run writes it there. -/
theorem inQuarantine_iff {run : List Statement} {b : BronzeRow} :
    InQuarantine (Lake.empty.run hexMd5 run) b ↔
      SomeStep (Lake.step hexMd5) (WritesToQuarantine hexMd5 b) Lake.empty run := by
  constructor
  · intro h
    rcases run_gained (inQuarantine_step hexMd5) run h with ⟨q, hq, -⟩ | hwrites
    · cases hq
    · exact hwrites
  · rintro ⟨pre, st, post, rfl, hc, ⟨now, lookbackDays, bronze, rfl, r, hr, hraw, hsymbol⟩, hnew⟩
    refine ⟨quarantineOf hexMd5 now r, ?_, hraw, hsymbol⟩
    rw [Lake.run_append, Lake.run_cons]
    refine Lake.mem_run_quarantine hexMd5 ((Lake.step_mergeSilverQuarantine hexMd5 hc _).2 (Or.inr ⟨r, ?_, rfl, ?_⟩))
    · exact (mem_rowNumberOne_iff _ _ _ r).2 hr
    · unfold StoredInQuarantine
      rw [hraw]
      exact hnew

/-- **A run partitions Bronze exactly when** it reads every row with a key on one side of its clock bounds, and writes
each that both its merges read to one table only. -/
theorem partitioned_iff (run : List Statement) :
    Partitioned hexMd5 run ↔ ∀ b, fullKey b.key = true →
      OnOneSide run b ∧ (SeenByBoth hexMd5 run b → WrittenOnce hexMd5 run b) := by
  have hone : ∀ b, fullKey b.key = true → (WrittenOnce hexMd5 run b ↔
      Xor (InSilver (Lake.empty.run hexMd5 run) b) (InQuarantine (Lake.empty.run hexMd5 run) b)) := fun b hb => by
    unfold WrittenOnce
    rw [inSilver_iff hexMd5 hb, inQuarantine_iff hexMd5]
  constructor
  · intro h b hb
    exact ⟨(classifiedAlike_iff run b).1 (h.alike b hb), fun hseen => (hone b hb).2 (h.inOne b hb hseen)⟩
  · intro h
    have halike : ∀ b, fullKey b.key = true → ClassifiedAlike run b := fun b hb =>
      (classifiedAlike_iff run b).2 (h b hb).1
    exact ⟨halike, fun b hb => not_inserted_into_both hexMd5 (halike b hb),
      fun b hb hseen => (hone b hb).1 ((h b hb).2 hseen)⟩

/-- A stream trade of ten past midnight, arrived with its event. -/
def midnightTrade : BronzeRow :=
  { venue := some "binance", venueSymbol := some "BTCUSDT", instrumentId := some "BTC-USD", tradeId := some "1"
    eventTsUs := some 1728000600000000, ingestTsUs := some 1728000600100000, price := some "60000.5"
    size := some "0.25", side := some "BUY", sequence := some 1, isBackfill := some false, source := some "STREAM"
    ingestDate := 20000 }

/-- Five minutes after the trade, and again at noon of the next day: both read it, and it changes sides. -/
theorem next_noon_quarantines_a_silver_trade :
    ¬ ∀ (hexMd5 : String → String) (run : List Statement), Scheduled run → Partitioned hexMd5 run := by
  intro h
  have hrun : Scheduled [.mergeSilverTrades 1728000900000 1 [midnightTrade],
      .mergeSilverQuarantine 1728129600000 1 [midnightTrade]] :=
    ⟨by decide, by decide, by decide, by decide⟩
  have halike := (h id _ hrun).alike midnightTrade (by decide)
  have hsame := halike _ List.mem_cons_self _ (List.mem_cons_of_mem _ List.mem_cons_self) 1728000900000 1728129600000
    ⟨1, [midnightTrade], rfl, by simp, by decide⟩ ⟨1, [midnightTrade], rfl, by simp, by decide⟩
  exact absurd hsame (by decide)

end Awsnative
