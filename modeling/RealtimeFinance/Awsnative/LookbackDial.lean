import RealtimeFinance.Awsnative.Classification
import RealtimeFinance.Awsnative.GoldFidelity
/-!
# LookbackDial — one micro-batch under two values of `lookback_days`

The window is meant to cost money and to change no result, so it is widened after an outage.  But the contract the
wider window applies reads the clock of the late micro-batch, and a `STREAM` row older than a day is rejected by it:
the missed trade goes to quarantine, and so does an old one that Silver has.  `lookbackDial_iff` says when widening
does what it is for, statement by statement.
-/
namespace Awsnative

open Sql Runs

variable (hexMd5 : String → String)

/-! ## What widening promises -/

/-- The rows that only the wider window reads. -/
def OnlyWider (now : Int) (m n : Nat) (b : BronzeRow) : Prop := inWindow now n b = true ∧ inWindow now m b = false

/-- A micro-batch within `delay` of the row's arrival would have accepted it. -/
def AcceptedOnArrival (arrived : BronzeRow → Int) (delay : Int) (lookbackDays : Nat) (b : BronzeRow) : Prop :=
  ∃ now, arrived b ≤ now ∧ now ≤ arrived b + delay ∧ accepted now lookbackDays b = true

/-- A micro-batch: the clock and the Bronze of each of its three statements. -/
structure MicroBatch where
  silver : Int × List BronzeRow
  quarantine : Int × List BronzeRow
  gold : Int × List BronzeRow

def MicroBatch.reads (x : MicroBatch) : List (Int × List BronzeRow) := [x.silver, x.quarantine, x.gold]

def MicroBatch.mergeSilver (x : MicroBatch) (lookbackDays : Nat) : Statement :=
  .mergeSilverTrades x.silver.1 lookbackDays x.silver.2

def MicroBatch.mergeQuarantine (x : MicroBatch) (lookbackDays : Nat) : Statement :=
  .mergeSilverQuarantine x.quarantine.1 lookbackDays x.quarantine.2

def MicroBatch.mergeGold (x : MicroBatch) (lookbackDays : Nat) : Statement :=
  .mergeGoldBars1m x.gold.1 lookbackDays x.gold.2

def MicroBatch.statements (x : MicroBatch) (lookbackDays : Nat) : List Statement :=
  [x.mergeSilver lookbackDays, x.mergeQuarantine lookbackDays, x.mergeGold lookbackDays]

def CommittedIn (history : List Statement) (st : Statement) : Prop :=
  SomeStep (Lake.step hexMd5) (fun lake st' => st' = st ∧ lake.commits hexMd5 st = true) Lake.empty history

/-- **The micro-batch ran**: all its statements committed, Gold's after the other two, whatever stands in between. -/
def MicroBatch.RanIn (x : MicroBatch) (lookbackDays : Nat) (history : List Statement) : Prop :=
  ∃ pre post, history = pre ++ x.mergeGold lookbackDays :: post ∧
    (Lake.empty.run hexMd5 pre).commits hexMd5 (x.mergeGold lookbackDays) = true ∧
    CommittedIn hexMd5 pre (x.mergeSilver lookbackDays) ∧ CommittedIn hexMd5 pre (x.mergeQuarantine lookbackDays)

/-- **Nothing was missed**: each row that only the wider window reads, an earlier micro-batch read in all its
statements. -/
def NothingMissed (history : List Statement) (x : MicroBatch) (m n : Nat) : Prop :=
  ∀ r ∈ x.reads, ∀ b ∈ r.2, OnlyWider r.1 m n b → ∃ (y : MicroBatch) (lookbackDays : Nat),
    y.RanIn hexMd5 lookbackDays history ∧ ∀ q ∈ y.reads, b ∈ q.2 ∧ inWindow q.1 lookbackDays b = true

/-- Two executions of a statement: both fail, or both commit and leave tables alike. -/
def SameOutcome {α : Type} (alike : α → α → Prop) : Except Error α → Except Error α → Prop
  | .ok table, .ok table' => alike table table'
  | .error _, .error _    => True
  | _, _                  => False

/-- **The two windows give one result.**  Gold is reached when the quarantine merge commits, reads what Silver's left in
one scan order, and is compared without `updated_ts`. -/
structure SameResult (lake : Lake) (x : MicroBatch) (m n : Nat) : Prop where
  silver : (lake.step hexMd5 (x.mergeSilver n)).silver.Perm (lake.step hexMd5 (x.mergeSilver m)).silver
  quarantine : SameOutcome List.Perm
    (mergeSilverQuarantine hexMd5 x.quarantine.1 n x.quarantine.2 lake.quarantine)
    (mergeSilverQuarantine hexMd5 x.quarantine.1 m x.quarantine.2 lake.quarantine)
  gold : lake.commits hexMd5 (x.mergeQuarantine m) = true →
    ∀ silver, silver.Perm (lake.step hexMd5 (x.mergeSilver m)).silver →
      SameOutcome (fun gold gold' => (gold.map GoldRow.timeless).Perm (gold'.map GoldRow.timeless))
        (mergeGoldBars1m x.gold.1 n x.gold.2 silver lake.gold) (mergeGoldBars1m x.gold.1 m x.gold.2 silver lake.gold)

/-- **A cost dial and not a correctness dial**: the wider window brings into Silver what a prompt micro-batch would have
accepted, and changes no result when nothing was missed. -/
structure CostDial (arrived : BronzeRow → Int) (delay : Int) (history : List Statement) (x : MicroBatch) (m n : Nat) :
    Prop where
  recovers : ∀ b ∈ x.silver.2, inWindow x.silver.1 n b = true → AcceptedOnArrival arrived delay m b →
    InSilver ((Lake.empty.run hexMd5 history).run hexMd5 (x.statements n)) b
  unchanged : NothingMissed hexMd5 history x m n → SameResult hexMd5 (Lake.empty.run hexMd5 history) x m n

theorem inWindow_mono {now : Int} {m n : Nat} (h : m ≤ n) {b : BronzeRow} (hb : inWindow now m b = true) :
    inWindow now n b = true := by
  unfold inWindow at *
  simp only [decide_eq_true_eq] at *
  omega

/-- A row of the wider window is in the narrower one, or only in the wider. -/
theorem onlyWider_or {now : Int} {m n : Nat} {b : BronzeRow} (hb : inWindow now n b = true) :
    inWindow now m b = true ∨ OnlyWider now m n b := by
  cases hm : inWindow now m b with
  | true => exact Or.inl rfl
  | false => exact Or.inr ⟨hb, hm⟩

/-! ## The rows numbered 1

Both merges number the rows of one half of the window, so widening it can put a row before the one that was first. -/

/-- The row is numbered 1 of its key in the half of the window that `half` picks. -/
def FirstInWindow (half : BronzeRow → Bool) (now : Int) (lookbackDays : Nat) (bronze : List BronzeRow) (b : BronzeRow) :
    Prop :=
  IsFirst BronzeRow.key BronzeRow.ingestTsUs (bronze.filter (fun b => inWindow now lookbackDays b && half b)) b

abbrev FirstAccepted (now : Int) (lookbackDays : Nat) (bronze : List BronzeRow) (b : BronzeRow) : Prop :=
  FirstInWindow (valid now) now lookbackDays bronze b

abbrev FirstRejected (now : Int) (lookbackDays : Nat) (bronze : List BronzeRow) (b : BronzeRow) : Prop :=
  FirstInWindow (fun b => !valid now b) now lookbackDays bronze b

theorem mem_silverSource {now : Int} {lookbackDays : Nat} {bronze : List BronzeRow} {b : BronzeRow} :
    b ∈ silverSource now lookbackDays bronze ↔ FirstAccepted now lookbackDays bronze b := mem_rowNumberOne_iff _ _ _ b

theorem mem_quarantineSource {now : Int} {lookbackDays : Nat} {bronze : List BronzeRow} {b : BronzeRow} :
    b ∈ quarantineSource now lookbackDays bronze ↔ FirstRejected now lookbackDays bronze b :=
  mem_rowNumberOne_iff _ _ _ b

section FirstInWindow

variable {half : BronzeRow → Bool} {now : Int} {m n : Nat} {bronze : List BronzeRow} {b c : BronzeRow}

theorem FirstInWindow.mem_filter (hb : FirstInWindow half now n bronze b) :
    b ∈ bronze.filter (fun b => inWindow now n b && half b) :=
  mem_of_mem_rowNumberOne _ _ ((mem_rowNumberOne_iff _ _ _ b).2 hb)

theorem FirstInWindow.mem (hb : FirstInWindow half now n bronze b) : b ∈ bronze := (List.mem_filter.1 hb.mem_filter).1

theorem FirstInWindow.inside (hb : FirstInWindow half now n bronze b) : inWindow now n b = true ∧ half b = true :=
  Bool.and_eq_true_iff.1 (List.mem_filter.1 hb.mem_filter).2

theorem FirstInWindow.eq_of_key (hb : FirstInWindow half now n bronze b) (hc : FirstInWindow half now n bronze c)
    (hkey : b.key = c.key) : b = c :=
  eq_of_mem_rowNumberOne _ _ ((mem_rowNumberOne_iff _ _ _ b).2 hb) ((mem_rowNumberOne_iff _ _ _ c).2 hc) hkey

theorem filter_inWindow (h : m ≤ n) : bronze.filter (fun b => inWindow now m b && half b) =
    (bronze.filter (fun b => inWindow now n b && half b)).filter (inWindow now m) := by
  rw [List.filter_filter]
  refine List.filter_congr (fun b _ => ?_)
  rw [Bool.eq_iff_iff, Bool.and_eq_true, Bool.and_eq_true, Bool.and_eq_true]
  exact ⟨fun hb => ⟨hb.1, inWindow_mono h hb.1, hb.2⟩, fun hb => ⟨hb.1, hb.2.2⟩⟩

theorem FirstInWindow.narrow (h : m ≤ n) (hb : FirstInWindow half now n bronze b) (hm : inWindow now m b = true) :
    FirstInWindow half now m bronze b := by
  unfold FirstInWindow
  rw [filter_inWindow h]
  exact IsFirst.filter _ _ hb hm

/-- **The narrower window's first row of a key is the wider one's**, unless only the wider one reads that. -/
theorem FirstInWindow.widen (h : m ≤ n) (hb : FirstInWindow half now m bronze b) :
    ∃ c, FirstInWindow half now n bronze c ∧ c.key = b.key ∧ (c = b ∨ OnlyWider now m n c) := by
  unfold FirstInWindow at hb
  rw [filter_inWindow h] at hb
  obtain ⟨c, hc, hkey, hcb⟩ := IsFirst.of_filter _ _ hb
  exact ⟨c, hc, hkey, hcb.imp_right (fun hout => ⟨(FirstInWindow.inside hc).1, hout⟩)⟩

end FirstInWindow

/-! ## Silver -/

theorem mem_source_iff {now : Int} {lookbackDays : Nat} {bronze : List BronzeRow} {source : List SilverRow}
    (h : (silverSource now lookbackDays bronze).mapM silverOf = .ok source) (s : SilverRow) :
    s ∈ source ↔ ∃ b, FirstAccepted now lookbackDays bronze b ∧ silverOf b = .ok s :=
  (mem_mapM_iff h).trans (exists_congr (fun _ => and_congr_left (fun _ => mem_silverSource)))

/-- What a predicate finds of a key in Silver. -/
def FoundInSilver (lake : Lake) (k : Option String × Option String) : Prop := fullKey k = true ∧ HeldInSilver lake k

theorem mem_inserted_iff {lake : Lake} {source : List SilverRow} (s : SilverRow) :
    s ∈ silverMerge.inserted source lake.silver ↔ s ∈ source ∧ ¬ FoundInSilver lake s.key := by
  rw [silverMerge_keyed.inserted_iff]
  have hheld : HeldInSilver lake s.key ↔ (rowOf SilverRow.key s.key lake.silver).isSome = true := rowOf_isSome.symm
  unfold FoundInSilver
  rw [not_and, hheld, Bool.not_eq_true]

theorem MicroBatch.run_silver (x : MicroBatch) (n : Nat) (lake : Lake) :
    (lake.run hexMd5 (x.statements n)).silver.Perm (lake.step hexMd5 (x.mergeSilver n)).silver := by
  generalize hfirst : lake.step hexMd5 (x.mergeSilver n) = first
  have hrun : lake.run hexMd5 (x.statements n) =
      (first.step hexMd5 (x.mergeQuarantine n)).step hexMd5 (x.mergeGold n) := by
    rw [← hfirst]
    rfl
  rw [hrun]
  exact (Lake.step_silver_perm hexMd5 _ (fun _ _ _ h => by cases h) (fun _ _ h => by cases h)).trans
    (Lake.step_silver_perm hexMd5 _ (fun _ _ _ h => by cases h) (fun _ _ h => by cases h))

/-- Two Bronze rows of one trade, with one event time, price and size. -/
def SameFacts (c b : BronzeRow) : Prop :=
  c.identity = b.identity ∧ c.eventTsUs = b.eventTsUs ∧
    castDecimal 38 18 c.price = castDecimal 38 18 b.price ∧ castDecimal 38 18 c.size = castDecimal 38 18 b.size

theorem carries_iff {c b : BronzeRow} {s : SilverRow} (h : silverOf c = .ok s) : s.Carries b ↔ SameFacts c b := by
  obtain ⟨price, hprice, hrest⟩ := bind_ok h
  obtain ⟨size, hsize, he⟩ := bind_ok hrest
  obtain ⟨-, -, -, -, hevent, -⟩ := silverOf_ok h
  have hid := silverOf_identity h
  have hs := Except.ok.inj he
  unfold SilverRow.Carries SameFacts
  rw [hid, hevent, hprice, hsize, ← hs, eq_comm (a := castDecimal 38 18 b.price), eq_comm (a := castDecimal 38 18 b.size)]

/-- **A row is in Silver after a micro-batch exactly when** it was there, or the merge, at its own clock, numbers 1 of
their key an accepted row of the same facts, and finds no row of that key. -/
theorem inSilver_after_iff (lake : Lake) (x : MicroBatch) (n : Nat) (b : BronzeRow) :
    InSilver (lake.run hexMd5 (x.statements n)) b ↔ InSilver lake b ∨
      ∃ c, FirstAccepted x.silver.1 n x.silver.2 c ∧ SameFacts c b ∧ ¬ FoundInSilver lake c.key := by
  obtain ⟨source, hsource, -, -, hsilver⟩ := lake.step_mergeSilverTrades hexMd5 x.silver.1 n x.silver.2
  have hmem : ∀ s, s ∈ (lake.run hexMd5 (x.statements n)).silver ↔
      s ∈ lake.silver ∨ (∃ c, FirstAccepted x.silver.1 n x.silver.2 c ∧ silverOf c = .ok s) ∧
        ¬ FoundInSilver lake s.key := fun s => by
    rw [(x.run_silver hexMd5 n lake).mem_iff]
    show s ∈ (lake.step hexMd5 (.mergeSilverTrades x.silver.1 n x.silver.2)).silver ↔ _
    rw [hsilver, List.mem_append, mem_inserted_iff, mem_source_iff hsource]
  constructor
  · rintro ⟨s, hs, hsb⟩
    rcases (hmem s).1 hs with hold | ⟨⟨c, hfirst, hcs⟩, hnew⟩
    · exact Or.inl ⟨s, hold, hsb⟩
    · rw [silverOf_key hcs] at hnew
      exact Or.inr ⟨c, hfirst, (carries_iff hcs).1 hsb, hnew⟩
  · rintro (⟨s, hs, hsb⟩ | ⟨c, hfirst, hfacts, hnew⟩)
    · exact ⟨s, (hmem s).2 (Or.inl hs), hsb⟩
    · obtain ⟨s, hcs⟩ := silverOf_valid hfirst.inside.2
      rw [← silverOf_key hcs] at hnew
      exact ⟨s, (hmem s).2 (Or.inr ⟨⟨c, hfirst, hcs⟩, hnew⟩), (carries_iff hcs).2 hfacts⟩

/-- Each row that only the wider window reads, and numbers 1 of its key, has its key in Silver already, or is written as
the row the narrower one numbers 1. -/
def SilverExposesNothing (lake : Lake) (now : Int) (m n : Nat) (bronze : List BronzeRow) : Prop :=
  ∀ b, OnlyWider now m n b → FirstAccepted now n bronze b →
    FoundInSilver lake b.key ∨ ∃ c, FirstAccepted now m bronze c ∧ silverOf c = silverOf b

/-- **The two windows leave one Silver exactly when** the wider one exposes nothing to its merge. -/
theorem sameSilver_iff {now : Int} {m n : Nat} (h : m ≤ n) (lake : Lake) (bronze : List BronzeRow) :
    (lake.step hexMd5 (.mergeSilverTrades now n bronze)).silver.Perm
        (lake.step hexMd5 (.mergeSilverTrades now m bronze)).silver ↔ SilverExposesNothing lake now m n bronze := by
  obtain ⟨wide, hwide, hnodup, -, hsilver⟩ := lake.step_mergeSilverTrades hexMd5 now n bronze
  obtain ⟨narrow, hnarrow, hnodup', -, hsilver'⟩ := lake.step_mergeSilverTrades hexMd5 now m bronze
  rw [hsilver, hsilver',
    MergeInto.inserted_perm_iff (List.Nodup.of_map _ hnodup) (List.Nodup.of_map _ hnodup') lake.silver]
  simp only [mem_inserted_iff, mem_source_iff hwide, mem_source_iff hnarrow]
  constructor
  · intro hsame b honly hfirst
    by_cases hfound : FoundInSilver lake b.key
    · exact Or.inl hfound
    · obtain ⟨s, hbs⟩ := silverOf_valid hfirst.inside.2
      have hnew : ¬ FoundInSilver lake s.key := by
        rw [silverOf_key hbs]
        exact hfound
      obtain ⟨⟨c, hc, hcs⟩, -⟩ := (hsame s).1 ⟨⟨b, hfirst, hbs⟩, hnew⟩
      exact Or.inr ⟨c, hc, hcs.trans hbs.symm⟩
  · intro hnone s
    refine and_congr_left (fun hnew => ⟨?_, ?_⟩)
    · rintro ⟨b, hfirst, hbs⟩
      rcases onlyWider_or (m := m) hfirst.inside.1 with hm | honly
      · exact ⟨b, hfirst.narrow h hm, hbs⟩
      · rcases hnone b honly hfirst with hfound | ⟨c, hc, hcb⟩
        · rw [silverOf_key hbs] at hnew
          exact absurd hfound hnew
        · exact ⟨c, hc, hcb.trans hbs⟩
    · rintro ⟨b, hfirst, hbs⟩
      obtain ⟨c, hc, hkey, rfl | honly⟩ := hfirst.widen h
      · exact ⟨c, hc, hbs⟩
      · rcases hnone c honly hc with hfound | ⟨d, hd, hdc⟩
        · rw [silverOf_key hbs, ← hkey] at hnew
          exact absurd hfound hnew
        · obtain ⟨s', hcs⟩ := silverOf_valid hc.inside.2
          have hdb : d.key = b.key := (silverOf_key (hdc.trans hcs)).symm.trans ((silverOf_key hcs).trans hkey)
          rw [hd.eq_of_key hfirst hdb, hbs] at hdc
          exact ⟨c, hc, hdc.symm⟩

/-! ## Quarantine -/

/-- Two rows the merge numbers 1 have one stored `row_key`, which fails it. -/
def StoredTwice (lake : Lake) (now : Int) (lookbackDays : Nat) (bronze : List BronzeRow) : Prop :=
  ∃ b, FirstRejected now lookbackDays bronze b ∧ ∃ c, FirstRejected now lookbackDays bronze c ∧ b ≠ c ∧
    StoredInQuarantine hexMd5 lake b ∧ hexMd5 (rawText b.raw) = hexMd5 (rawText c.raw)

theorem quarantineOf_injective (now : Int) : Function.Injective (quarantineOf hexMd5 now) := by
  intro b c h
  cases b
  cases c
  simp only [quarantineOf, QuarantineRow.mk.injEq] at h
  simp only [BronzeRow.mk.injEq]
  simp [h]

theorem quarantineSource_nodup (now : Int) (lookbackDays : Nat) (bronze : List BronzeRow) :
    ((quarantineSource now lookbackDays bronze).map (quarantineOf hexMd5 now)).Nodup :=
  (List.Nodup.of_map _ (rowNumberOne_nodup _ _ _)).map (quarantineOf_injective hexMd5 now)

theorem quarantine_matchesTwice_iff (lake : Lake) (now : Int) (lookbackDays : Nat) (bronze : List BronzeRow) :
    quarantineMerge.MatchesTwice ((quarantineSource now lookbackDays bronze).map (quarantineOf hexMd5 now))
      lake.quarantine ↔ StoredTwice hexMd5 lake now lookbackDays bronze := by
  rw [MergeInto.matchesTwice_iff (quarantineSource_nodup hexMd5 now lookbackDays bronze)]
  simp only [quarantineMerge_hits]
  constructor
  · rintro ⟨q, hq, q', hq', hne, t, ht, hkey, hkey'⟩
    obtain ⟨b, hb, rfl⟩ := List.mem_map.1 hq
    obtain ⟨c, hc, rfl⟩ := List.mem_map.1 hq'
    refine ⟨b, mem_quarantineSource.1 hb, c, mem_quarantineSource.1 hc, fun he => hne (by rw [he]), ⟨t, ht, hkey.symm⟩, ?_⟩
    exact hkey.trans hkey'.symm
  · rintro ⟨b, hb, c, hc, hne, ⟨t, ht, hkey⟩, hsame⟩
    exact ⟨_, List.mem_map_of_mem (mem_quarantineSource.2 hb), _, List.mem_map_of_mem (mem_quarantineSource.2 hc),
      fun he => hne (quarantineOf_injective hexMd5 now he), t, ht, hkey.symm, (hkey.trans hsame).symm⟩

theorem mem_quarantined_iff (lake : Lake) (now : Int) (lookbackDays : Nat) (bronze : List BronzeRow) (q : QuarantineRow) :
    q ∈ quarantineMerge.inserted ((quarantineSource now lookbackDays bronze).map (quarantineOf hexMd5 now))
        lake.quarantine ↔
      ∃ b, FirstRejected now lookbackDays bronze b ∧ ¬ StoredInQuarantine hexMd5 lake b ∧ quarantineOf hexMd5 now b = q := by
  rw [MergeInto.mem_inserted, List.mem_map]
  constructor
  · rintro ⟨⟨b, hb, rfl⟩, hnew⟩
    refine ⟨b, mem_quarantineSource.1 hb, ?_, rfl⟩
    rintro ⟨t, ht, hkey⟩
    have hmiss := hnew t ht
    rw [(quarantineMerge_hits _ t).2 hkey.symm] at hmiss
    cases hmiss
  · rintro ⟨b, hb, hnew, rfl⟩
    refine ⟨⟨b, mem_quarantineSource.2 hb, rfl⟩, fun t ht => ?_⟩
    rw [← Bool.not_eq_true, quarantineMerge_hits]
    exact fun hkey => hnew ⟨t, ht, hkey.symm⟩

/-- The wider window fails the merge where the narrower one does; and, where neither does, each row that only the wider
one reads and numbers 1 is stored, and so is the row it pushes from the first place. -/
structure QuarantineExposesNothing (lake : Lake) (now : Int) (m n : Nat) (bronze : List BronzeRow) : Prop where
  fails : StoredTwice hexMd5 lake now n bronze ↔ StoredTwice hexMd5 lake now m bronze
  stored : ¬ StoredTwice hexMd5 lake now m bronze → ∀ c, OnlyWider now m n c → FirstRejected now n bronze c →
    StoredInQuarantine hexMd5 lake c ∧
    ∀ b, FirstRejected now m bronze b → b.key = c.key → StoredInQuarantine hexMd5 lake b

/-- A merge that goes through in both windows adds the same rows. -/
theorem quarantined_iff {now : Int} {m n : Nat} (h : m ≤ n) (lake : Lake) (bronze : List BronzeRow) :
    (∀ b, FirstRejected now n bronze b ∧ ¬ StoredInQuarantine hexMd5 lake b ↔
        FirstRejected now m bronze b ∧ ¬ StoredInQuarantine hexMd5 lake b) ↔
      ∀ c, OnlyWider now m n c → FirstRejected now n bronze c → StoredInQuarantine hexMd5 lake c ∧
        ∀ b, FirstRejected now m bronze b → b.key = c.key → StoredInQuarantine hexMd5 lake b := by
  constructor
  · intro hsame c honly hfirst
    constructor
    · by_contra hnew
      have hin := ((hsame c).1 ⟨hfirst, hnew⟩).1.inside.1
      rw [honly.2] at hin
      cases hin
    · intro b hb hkey
      by_contra hnew
      have hwide := ((hsame b).2 ⟨hb, hnew⟩).1
      have hin := hb.inside.1
      rw [hwide.eq_of_key hfirst hkey, honly.2] at hin
      cases hin
  · intro hstored b
    refine and_congr_left (fun hnew => ⟨fun hfirst => ?_, fun hfirst => ?_⟩)
    · rcases onlyWider_or (m := m) hfirst.inside.1 with hm | honly
      · exact hfirst.narrow h hm
      · exact absurd (hstored b honly hfirst).1 hnew
    · obtain ⟨c, hc, hkey, rfl | honly⟩ := hfirst.widen h
      · exact hc
      · exact absurd ((hstored c honly hc).2 b hfirst hkey.symm) hnew

theorem mergeSilverQuarantine_of_storedTwice {lake : Lake} {now : Int} {lookbackDays : Nat} {bronze : List BronzeRow}
    (h : StoredTwice hexMd5 lake now lookbackDays bronze) :
    mergeSilverQuarantine hexMd5 now lookbackDays bronze lake.quarantine = .error .mergeTargetRowMultipleMatches :=
  MergeInto.run_eq_error ((quarantine_matchesTwice_iff hexMd5 lake now lookbackDays bronze).2 h)

theorem mergeSilverQuarantine_of_not_storedTwice {lake : Lake} {now : Int} {lookbackDays : Nat} {bronze : List BronzeRow}
    (h : ¬ StoredTwice hexMd5 lake now lookbackDays bronze) :
    mergeSilverQuarantine hexMd5 now lookbackDays bronze lake.quarantine = .ok (lake.quarantine ++
      quarantineMerge.inserted ((quarantineSource now lookbackDays bronze).map (quarantineOf hexMd5 now))
        lake.quarantine) := by
  have htwice := fun ht => h ((quarantine_matchesTwice_iff hexMd5 lake now lookbackDays bronze).1 ht)
  have hrun := MergeInto.run_eq_merged htwice
  unfold mergeSilverQuarantine
  rw [hrun, ← MergeInto.run_insert (fun _ _ => rfl) hrun]

/-- **The two windows give one quarantine exactly when** the wider one exposes nothing to its merge. -/
theorem sameQuarantine_iff {now : Int} {m n : Nat} (h : m ≤ n) (lake : Lake) (bronze : List BronzeRow) :
    SameOutcome List.Perm (mergeSilverQuarantine hexMd5 now n bronze lake.quarantine)
        (mergeSilverQuarantine hexMd5 now m bronze lake.quarantine) ↔
      QuarantineExposesNothing hexMd5 lake now m n bronze := by
  by_cases hn : StoredTwice hexMd5 lake now n bronze <;> by_cases hm : StoredTwice hexMd5 lake now m bronze
  · rw [mergeSilverQuarantine_of_storedTwice hexMd5 hn, mergeSilverQuarantine_of_storedTwice hexMd5 hm]
    exact iff_of_true trivial ⟨iff_of_true hn hm, fun hnot => absurd hm hnot⟩
  · rw [mergeSilverQuarantine_of_storedTwice hexMd5 hn, mergeSilverQuarantine_of_not_storedTwice hexMd5 hm]
    exact iff_of_false id (fun hnone => hm (hnone.fails.1 hn))
  · rw [mergeSilverQuarantine_of_not_storedTwice hexMd5 hn, mergeSilverQuarantine_of_storedTwice hexMd5 hm]
    exact iff_of_false id (fun hnone => hn (hnone.fails.2 hm))
  · rw [mergeSilverQuarantine_of_not_storedTwice hexMd5 hn, mergeSilverQuarantine_of_not_storedTwice hexMd5 hm]
    refine (MergeInto.inserted_perm_iff (quarantineSource_nodup hexMd5 now n bronze)
      (quarantineSource_nodup hexMd5 now m bronze) lake.quarantine).trans ?_
    simp only [mem_quarantined_iff]
    constructor
    · intro hsame
      refine ⟨iff_of_false hn hm, fun _ => (quarantined_iff hexMd5 h lake bronze).1 (fun b => ?_)⟩
      simpa [(quarantineOf_injective hexMd5 now).eq_iff] using hsame (quarantineOf hexMd5 now b)
    · intro hnone q
      have hiff := (quarantined_iff hexMd5 h lake bronze).2 (hnone.stored hm)
      refine exists_congr (fun b => ?_)
      rw [← and_assoc, ← and_assoc, hiff]

/-! ## Gold -/

/-- Every bar the window rebuilds is computed without an overflow or a comparison of a NULL. -/
def Computes (now : Int) (lookbackDays : Nat) (bronze : List BronzeRow) (silver : List SilverRow) : Prop :=
  ∀ s ∈ silver, rebuilt (dirtyFromBronze now lookbackDays bronze) s.barKey = true →
    ∃ bar, barOf (groupRows SilverRow.barKey s.barKey silver) = .ok bar

/-- Each bar that only the wider window rebuilds is in Gold, and there the bar of its Silver rows. -/
def GoldExposesNothing (now : Int) (m n : Nat) (bronze : List BronzeRow) (silver : List SilverRow) (gold : List GoldRow) :
    Prop :=
  Computes now m bronze silver → ∀ s ∈ silver, rebuilt (dirtyFromBronze now n bronze) s.barKey = true →
    rebuilt (dirtyFromBronze now m bronze) s.barKey = false →
    (∃ g ∈ gold, g.key = s.barKey) ∧ ∀ g ∈ gold, g.key = s.barKey → g.sourceTier = .derivedFromTrades ∧
      barOf (groupRows SilverRow.barKey s.barKey silver) = .ok g.bar

theorem mem_dirtyFromBronze {now : Int} {lookbackDays : Nat} {bronze : List BronzeRow} {d : Partition} :
    d ∈ dirtyFromBronze now lookbackDays bronze ↔ ∃ b ∈ bronze, inWindow now lookbackDays b = true ∧
      ∃ us, b.eventTsUs = some us ∧ (1500000000000000 ≤ us ∧ us ≤ 1900000000000000) ∧
        (b.instrumentId, millisDate (fromUnixtime (divDecimal us 0 10000000 1) 1)) = d := by
  unfold dirtyFromBronze
  rw [List.mem_dedup, List.mem_filterMap]
  refine exists_congr (fun b => and_congr_right (fun _ => ?_))
  cases b.eventTsUs with
  | none => simp
  | some us => simp [and_assoc]

theorem rebuilt_mono {now : Int} {m n : Nat} (h : m ≤ n) {bronze : List BronzeRow} {k : BarKey}
    (hk : rebuilt (dirtyFromBronze now m bronze) k = true) : rebuilt (dirtyFromBronze now n bronze) k = true := by
  obtain ⟨d, hd, hdk⟩ := List.any_eq_true.1 hk
  obtain ⟨b, hb, hin, hday⟩ := mem_dirtyFromBronze.1 hd
  exact List.any_eq_true.2 ⟨d, mem_dirtyFromBronze.2 ⟨b, hb, inWindow_mono h hin, hday⟩, hdk⟩

theorem barsSource_computes_iff {now : Int} {lookbackDays : Nat} {bronze : List BronzeRow} {silver : List SilverRow} :
    (∃ source, barsSource now (dirtyFromBronze now lookbackDays bronze) silver = .ok source) ↔
      Computes now lookbackDays bronze silver := by
  constructor
  · rintro ⟨source, hsource⟩ s hs hdirty
    obtain ⟨g, -, hgk⟩ := barsSource_covers hsource hs hdirty
    exact ⟨g.bar, (goldOf_ok hgk).2.2⟩
  · intro hcomputes
    refine mapM_total (fun k hk => ?_)
    obtain ⟨s, hs, rfl⟩ := mem_groupKeys.1 hk
    obtain ⟨hs, hdirty⟩ := mem_joinDirty.1 hs
    obtain ⟨bar, hbar⟩ := hcomputes s hs hdirty
    unfold goldOf
    rw [groupRows_joinDirty hdirty, hbar]
    exact ⟨_, rfl⟩

theorem timeless_eq_iff {g t : GoldRow} : t.timeless = g.timeless ↔
    t.key = g.key ∧ t.sourceTier = g.sourceTier ∧ t.bar = g.bar := by
  cases g
  cases t
  simp only [GoldRow.timeless, GoldRow.key, GoldRow.mk.injEq, Prod.mk.injEq]
  tauto

theorem mergeGoldBars1m_of_source {now : Int} {lookbackDays : Nat} {bronze : List BronzeRow} {silver : List SilverRow}
    {source : List GoldRow} (h : barsSource now (dirtyFromBronze now lookbackDays bronze) silver = .ok source)
    (gold : List GoldRow) : mergeGoldBars1m now lookbackDays bronze silver gold = .ok (goldMerge.merged source gold) := by
  rw [mergeGoldBars1m_eq, h]
  exact goldMerge_keyed.run_eq_of_unique (barsSource_ok h).2 gold

theorem mergeGoldBars1m_of_not_computes {now : Int} {lookbackDays : Nat} {bronze : List BronzeRow}
    {silver : List SilverRow} (h : ¬ Computes now lookbackDays bronze silver) (gold : List GoldRow) :
    ∃ e, mergeGoldBars1m now lookbackDays bronze silver gold = .error e := by
  rw [mergeGoldBars1m_eq]
  cases hsource : barsSource now (dirtyFromBronze now lookbackDays bronze) silver with
  | error e => exact ⟨e, rfl⟩
  | ok source => exact absurd (barsSource_computes_iff.1 ⟨source, hsource⟩) h

/-- The bars the wider source adds to the narrower one's are those of the partitions it alone rebuilds. -/
theorem added_bars_iff {now : Int} {m n : Nat} {bronze : List BronzeRow} {silver : List SilverRow}
    {source source' : List GoldRow} (hsource : barsSource now (dirtyFromBronze now n bronze) silver = .ok source)
    (hsource' : barsSource now (dirtyFromBronze now m bronze) silver = .ok source') (g : GoldRow) :
    (g ∈ source ∧ g ∉ source') ↔ ∃ s ∈ silver, rebuilt (dirtyFromBronze now n bronze) s.barKey = true ∧
      rebuilt (dirtyFromBronze now m bronze) s.barKey = false ∧ goldOf now silver s.barKey = .ok g := by
  rw [mem_barsSource hsource, mem_barsSource hsource']
  constructor
  · rintro ⟨⟨s, hs, hdirty, hg⟩, hout⟩
    refine ⟨s, hs, hdirty, ?_, hg⟩
    rw [← Bool.not_eq_true]
    exact fun hdirty' => hout ⟨s, hs, hdirty', hg⟩
  · rintro ⟨s, hs, hdirty, hclean, hg⟩
    refine ⟨⟨s, hs, hdirty, hg⟩, ?_⟩
    rintro ⟨s', hs', hdirty', hg'⟩
    rw [← (goldOf_ok hg').1, (goldOf_ok hg).1, hclean] at hdirty'
    cases hdirty'

/-- **Where both windows' bars compute**, they leave one Gold exactly when the bars only the wider one rebuilds are
stored and current. -/
theorem mergedBars_perm_iff {now : Int} {m n : Nat} (h : m ≤ n) {bronze : List BronzeRow} {silver : List SilverRow}
    {source source' : List GoldRow} (hsource : barsSource now (dirtyFromBronze now n bronze) silver = .ok source)
    (hsource' : barsSource now (dirtyFromBronze now m bronze) silver = .ok source') (gold : List GoldRow) :
    ((goldMerge.merged source gold).map GoldRow.timeless).Perm ((goldMerge.merged source' gold).map GoldRow.timeless) ↔
      GoldExposesNothing now m n bronze silver gold := by
  have hfull : ∀ g ∈ source, fullBarKey g.key = true := fun g hg => by
    obtain ⟨s, -, hdirty, hgk⟩ := (mem_barsSource hsource).1 hg
    rw [(goldOf_ok hgk).1]
    exact rebuilt_full hdirty
  have hsub : source' ⊆ source := fun g hg => by
    obtain ⟨s, hs, hdirty, hgk⟩ := (mem_barsSource hsource').1 hg
    exact (mem_barsSource hsource).2 ⟨s, hs, rebuilt_mono h hdirty, hgk⟩
  have hreplaces := (goldMerge_overrides (barsSource_ok hsource).1).replaces
  rw [goldMerge_keyed.merged_map_perm_iff goldMerge_keeps_key hreplaces (fun x y hxy => (timeless_eq_iff.1 hxy).1)
    (barsSource_ok hsource).2 (barsSource_ok hsource').2 hsub hfull]
  constructor
  · intro hadded _ s hs hdirty hclean
    obtain ⟨bar, hbar⟩ := barsSource_computes_iff.1 ⟨source, hsource⟩ s hs hdirty
    have hg := goldOf_of_bar now hbar
    obtain ⟨hin, hout⟩ := (added_bars_iff hsource hsource' _).2 ⟨s, hs, hdirty, hclean, hg⟩
    obtain ⟨hstored, hagree⟩ := hadded _ hin hout
    refine ⟨hstored, fun t ht hkey => ?_⟩
    obtain ⟨-, htier, htbar⟩ := timeless_eq_iff.1 (hagree t ht hkey)
    rw [htier, htbar]
    exact ⟨rfl, hbar⟩
  · intro hnone g hin hout
    obtain ⟨s, hs, hdirty, hclean, hg⟩ := (added_bars_iff hsource hsource' g).1 ⟨hin, hout⟩
    obtain ⟨hkey, htier, hbar⟩ := goldOf_ok hg
    obtain ⟨hstored, hcurrent⟩ := hnone (barsSource_computes_iff.1 ⟨source', hsource'⟩) s hs hdirty hclean
    rw [hkey]
    refine ⟨hstored, fun t ht hkt => ?_⟩
    obtain ⟨htier', hbar'⟩ := hcurrent t ht hkt
    rw [hbar] at hbar'
    exact timeless_eq_iff.2 ⟨hkt.trans hkey.symm, htier'.trans htier.symm, (Except.ok.inj hbar').symm⟩

/-- A window that exposes nothing computes its bars where the narrower one does. -/
theorem GoldExposesNothing.computes {now : Int} {m n : Nat} {bronze : List BronzeRow} {silver : List SilverRow}
    {gold : List GoldRow} (h : GoldExposesNothing now m n bronze silver gold) (hm : Computes now m bronze silver) :
    Computes now n bronze silver := by
  intro s hs hdirty
  cases hclean : rebuilt (dirtyFromBronze now m bronze) s.barKey with
  | true => exact hm s hs hclean
  | false =>
    obtain ⟨⟨g, hg, hkey⟩, hcurrent⟩ := h hm s hs hdirty hclean
    exact ⟨g.bar, (hcurrent g hg hkey).2⟩

/-- **The two windows give one Gold exactly when** the wider one exposes nothing to its merge. -/
theorem sameGold_iff {now : Int} {m n : Nat} (h : m ≤ n) (bronze : List BronzeRow) (silver : List SilverRow)
    (gold : List GoldRow) :
    SameOutcome (fun gold gold' => (gold.map GoldRow.timeless).Perm (gold'.map GoldRow.timeless))
        (mergeGoldBars1m now n bronze silver gold) (mergeGoldBars1m now m bronze silver gold) ↔
      GoldExposesNothing now m n bronze silver gold := by
  by_cases hm : Computes now m bronze silver
  · obtain ⟨source', hsource'⟩ := barsSource_computes_iff.2 hm
    rw [mergeGoldBars1m_of_source hsource']
    by_cases hn : Computes now n bronze silver
    · obtain ⟨source, hsource⟩ := barsSource_computes_iff.2 hn
      rw [mergeGoldBars1m_of_source hsource]
      exact mergedBars_perm_iff h hsource hsource' gold
    · obtain ⟨e, he⟩ := mergeGoldBars1m_of_not_computes hn gold
      rw [he]
      exact iff_of_false id (fun hnone => hn (hnone.computes hm))
  · have hn : ¬ Computes now n bronze silver := fun hn => hm (fun s hs hdirty => hn s hs (rebuilt_mono h hdirty))
    obtain ⟨e, he⟩ := mergeGoldBars1m_of_not_computes hm gold
    obtain ⟨e', he'⟩ := mergeGoldBars1m_of_not_computes hn gold
    rw [he, he']
    exact iff_of_true trivial (fun hcomputes => absurd hcomputes hm)

/-! ## The dial -/

/-- **The wider window exposes nothing** that its micro-batch would write otherwise than the narrower one's. -/
structure ExposesNothing (lake : Lake) (x : MicroBatch) (m n : Nat) : Prop where
  silver : SilverExposesNothing lake x.silver.1 m n x.silver.2
  quarantine : QuarantineExposesNothing hexMd5 lake x.quarantine.1 m n x.quarantine.2
  gold : ¬ StoredTwice hexMd5 lake x.quarantine.1 m x.quarantine.2 →
    ∀ silver, silver.Perm (lake.step hexMd5 (x.mergeSilver m)).silver →
      GoldExposesNothing x.gold.1 m n x.gold.2 silver lake.gold

/-- **The contract still accepts what was missed**: each row of the window that a prompt micro-batch would have accepted
is in Silver, or at the late clock the first accepted row of its key has its facts, and Silver no row of the key. -/
def StillAccepted (arrived : BronzeRow → Int) (delay : Int) (lake : Lake) (x : MicroBatch) (m n : Nat) : Prop :=
  ∀ b ∈ x.silver.2, inWindow x.silver.1 n b = true → AcceptedOnArrival arrived delay m b →
    InSilver lake b ∨ ∃ c, FirstAccepted x.silver.1 n x.silver.2 c ∧ SameFacts c b ∧ ¬ FoundInSilver lake c.key

theorem quarantine_commits_iff (lake : Lake) (now : Int) (lookbackDays : Nat) (bronze : List BronzeRow) :
    lake.commits hexMd5 (.mergeSilverQuarantine now lookbackDays bronze) = true ↔
      ¬ StoredTwice hexMd5 lake now lookbackDays bronze := by
  unfold Lake.commits Lake.exec
  by_cases h : StoredTwice hexMd5 lake now lookbackDays bronze
  · simp only [mergeSilverQuarantine_of_storedTwice hexMd5 h]
    exact iff_of_false (fun hok => by cases hok) (fun hnot => hnot h)
  · simp only [mergeSilverQuarantine_of_not_storedTwice hexMd5 h]
    exact iff_of_true rfl h

theorem sameResult_iff {m n : Nat} (h : m ≤ n) (lake : Lake) (x : MicroBatch) :
    SameResult hexMd5 lake x m n ↔ ExposesNothing hexMd5 lake x m n := by
  have hcommits := quarantine_commits_iff hexMd5 lake x.quarantine.1 m x.quarantine.2
  constructor
  · rintro ⟨hsilver, hquarantine, hgold⟩
    refine ⟨(sameSilver_iff hexMd5 h lake x.silver.2).1 hsilver,
      (sameQuarantine_iff hexMd5 h lake x.quarantine.2).1 hquarantine, fun hgoes silver hperm => ?_⟩
    exact (sameGold_iff h x.gold.2 silver lake.gold).1 (hgold (hcommits.2 hgoes) silver hperm)
  · rintro ⟨hsilver, hquarantine, hgold⟩
    refine ⟨(sameSilver_iff hexMd5 h lake x.silver.2).2 hsilver,
      (sameQuarantine_iff hexMd5 h lake x.quarantine.2).2 hquarantine, fun hgoes silver hperm => ?_⟩
    exact (sameGold_iff h x.gold.2 silver lake.gold).2 (hgold (hcommits.1 hgoes) silver hperm)

/-- **`lookback_days` is a cost dial exactly when** the contract still accepts what was missed, and a window widened with
nothing missed exposes nothing. -/
theorem lookbackDial_iff (arrived : BronzeRow → Int) (delay : Int) (history : List Statement) (x : MicroBatch) (m n : Nat)
    (h : m ≤ n) :
    CostDial hexMd5 arrived delay history x m n ↔
      StillAccepted arrived delay (Lake.empty.run hexMd5 history) x m n ∧
      (NothingMissed hexMd5 history x m n → ExposesNothing hexMd5 (Lake.empty.run hexMd5 history) x m n) := by
  rw [← sameResult_iff hexMd5 h]
  constructor
  · rintro ⟨hrecovers, hunchanged⟩
    refine ⟨fun b hb hin harrived => ?_, hunchanged⟩
    exact (inSilver_after_iff hexMd5 _ x n b).1 (hrecovers b hb hin harrived)
  · rintro ⟨hstill, hunchanged⟩
    refine ⟨fun b hb hin harrived => ?_, hunchanged⟩
    exact (inSilver_after_iff hexMd5 _ x n b).2 (hstill b hb hin harrived)

/-- Firehose delivers a row when it is received. -/
def receivedAt (b : BronzeRow) : Int := coalesce b.ingestTsUs 0 / 1000

/-- A trade a repair asked for: the contract admits it for two years. -/
def repairedTrade : BronzeRow := { bitcoinTrade with source := some "REPAIR", isBackfill := some true }

/-- Within minutes of the trade's arrival, each statement at its own clock. -/
def promptBatch (b : BronzeRow) : MicroBatch :=
  ⟨(1728000900000, [b]), (1728000904000, [b]), (1728000930000, [b])⟩

/-- Three days later. -/
def lateBatch (b : BronzeRow) : MicroBatch :=
  ⟨(1728260100000, [b]), (1728260103000, [b]), (1728260131000, [b])⟩

/-- What the prompt micro-batch reads and commits, the late one did not miss. -/
theorem nothingMissed_lateBatch {b : BronzeRow} (hin : ∀ q ∈ (promptBatch b).reads, b ∈ q.2 ∧ inWindow q.1 1 b = true)
    (hsilver : Lake.empty.commits id ((promptBatch b).mergeSilver 1) = true)
    (hquarantine : (Lake.empty.run id [(promptBatch b).mergeSilver 1]).commits id
      ((promptBatch b).mergeQuarantine 1) = true)
    (hgold : (Lake.empty.run id [(promptBatch b).mergeSilver 1, (promptBatch b).mergeQuarantine 1]).commits id
      ((promptBatch b).mergeGold 1) = true) :
    NothingMissed id ((promptBatch b).statements 1) (lateBatch b) 1 7 := by
  intro r hr c hc _
  have hcb : c = b := by
    rcases List.mem_cons.1 hr with rfl | hr
    · exact List.mem_singleton.1 hc
    · rcases List.mem_pair.1 hr with rfl | rfl <;> exact List.mem_singleton.1 hc
  subst hcb
  refine ⟨promptBatch c, 1, ⟨[(promptBatch c).mergeSilver 1, (promptBatch c).mergeQuarantine 1], [], rfl, hgold, ?_, ?_⟩, hin⟩
  · exact ⟨[], _, [(promptBatch c).mergeQuarantine 1], rfl, rfl, hsilver⟩
  · exact ⟨[(promptBatch c).mergeSilver 1], _, [], rfl, rfl, hquarantine⟩

/-- The late window's only row is in Silver, is accepted again, and its bar is stored. -/
theorem exposesNothing_repairedTrade : ExposesNothing id (Lake.empty.run id ((promptBatch repairedTrade).statements 1))
    (lateBatch repairedTrade) 1 7 := by
  generalize hlake : Lake.empty.run id ((promptBatch repairedTrade).statements 1) = lake
  have hquarantine : lake.quarantine = [] := by
    rw [← hlake]
    decide +kernel
  have hheld : ∃ s ∈ lake.silver, s.key = repairedTrade.key := by
    rw [← hlake]
    decide +kernel
  have hlate : (lake.step id ((lateBatch repairedTrade).mergeSilver 1)).silver = lake.silver ∧ lake.silver.length = 1 := by
    rw [← hlake]
    decide +kernel
  have hgold : ∀ s ∈ lake.silver, (∃ g ∈ lake.gold, g.key = s.barKey) ∧ ∀ g ∈ lake.gold,
      g.sourceTier = .derivedFromTrades ∧
        (barOf (groupRows SilverRow.barKey s.barKey lake.silver)).toOption = some g.bar := by
    rw [← hlake]
    decide +kernel
  have hnever : ∀ lookbackDays, ¬ StoredTwice id lake 1728260103000 lookbackDays [repairedTrade] := by
    rintro lookbackDays ⟨b, -, c, -, -, ⟨q, hq, -⟩, -⟩
    rw [hquarantine] at hq
    cases hq
  refine ⟨fun b _ hfirst => ?_, ⟨iff_of_false (hnever 7) (hnever 1), fun _ c _ hfirst => ?_⟩, fun _ silver hperm => ?_⟩
  · cases List.mem_singleton.1 hfirst.mem
    exact Or.inl ⟨by decide, hheld⟩
  · have hvalid := hfirst.inside.2
    cases List.mem_singleton.1 hfirst.mem
    exact absurd hvalid (by decide)
  · obtain ⟨s, hs⟩ := List.length_eq_one_iff.1 hlate.2
    rw [hlate.1, hs] at hperm
    rw [List.perm_singleton.1 hperm, ← hs]
    intro _ t ht _ _
    obtain ⟨hstored, hbars⟩ := hgold t ht
    refine ⟨hstored, fun g hg _ => ?_⟩
    obtain ⟨htier, hbar⟩ := hbars g hg
    refine ⟨htier, ?_⟩
    cases hcomputed : barOf (groupRows SilverRow.barKey t.barKey lake.silver) with
    | error e =>
      rw [hcomputed] at hbar
      cases hbar
    | ok bar =>
      rw [hcomputed] at hbar
      rw [Option.some.inj hbar]

theorem lookbackDial_iff_repairedTrade :
    NothingMissed id ((promptBatch repairedTrade).statements 1) (lateBatch repairedTrade) 1 7 ∧
      CostDial id receivedAt 900000 ((promptBatch repairedTrade).statements 1) (lateBatch repairedTrade) 1 7 := by
  refine ⟨nothingMissed_lateBatch (by decide) (by decide +kernel) (by decide +kernel) (by decide +kernel), ?_⟩
  refine (lookbackDial_iff id receivedAt 900000 _ (lateBatch repairedTrade) 1 7 (by decide)).2
    ⟨fun b hb _ _ => ?_, fun _ => exposesNothing_repairedTrade⟩
  cases List.mem_singleton.1 hb
  refine Or.inl ((inSilver_after_iff id Lake.empty (promptBatch repairedTrade) 1 repairedTrade).2 (Or.inr ?_))
  refine ⟨repairedTrade, mem_silverSource.1 (by decide), ⟨rfl, rfl, rfl, rfl⟩, ?_⟩
  rintro ⟨-, s, hs, -⟩
  cases hs

/-- A trade that no micro-batch read for three days: the widened window finds it, and the contract rejects it. -/
theorem missed_trade_is_not_recovered :
    ¬ ∀ (hexMd5 : String → String) (arrived : BronzeRow → Int) (delay : Int) (history : List Statement) (x : MicroBatch)
      (m n : Nat), 1 ≤ m → m ≤ n → CostDial hexMd5 arrived delay history x m n := by
  intro h
  have hdial := h id receivedAt 900000 [] (lateBatch bitcoinTrade) 1 7 (by decide) (by decide)
  have hprompt : AcceptedOnArrival receivedAt 900000 1 bitcoinTrade := ⟨1728000900000, by decide, by decide, by decide⟩
  obtain ⟨s, hs, -⟩ := hdial.recovers bitcoinTrade List.mem_cons_self (by decide) hprompt
  have hempty : (Lake.empty.run id ((lateBatch bitcoinTrade).statements 7)).silver = [] := by decide +kernel
  rw [show Lake.empty.run id [] = Lake.empty from rfl, hempty] at hs
  cases hs

/-- A stream trade that the prompt micro-batch put in Silver: nothing was missed, and the widened window quarantines
it. -/
theorem stored_trade_is_quarantined :
    ¬ ∀ (hexMd5 : String → String) (history : List Statement) (x : MicroBatch) (m n : Nat), m ≤ n →
      NothingMissed hexMd5 history x m n → SameResult hexMd5 (Lake.empty.run hexMd5 history) x m n := by
  intro h
  have hsame := h id _ (lateBatch bitcoinTrade) 1 7 (by decide)
    (nothingMissed_lateBatch (by decide) (by decide +kernel) (by decide +kernel) (by decide +kernel))
  have hquarantine := hsame.quarantine
  generalize hlake : Lake.empty.run id ((promptBatch bitcoinTrade).statements 1) = lake at hquarantine
  have hempty : lake.quarantine = [] := by
    rw [← hlake]
    decide +kernel
  have hwide : mergeSilverQuarantine id 1728260103000 7 [bitcoinTrade] [] =
      .ok [quarantineOf id 1728260103000 bitcoinTrade] := by rfl
  have hnarrow : mergeSilverQuarantine id 1728260103000 1 [bitcoinTrade] [] = .ok [] := by rfl
  have hperm : SameOutcome List.Perm (mergeSilverQuarantine id 1728260103000 7 [bitcoinTrade] [])
      (mergeSilverQuarantine id 1728260103000 1 [bitcoinTrade] []) := by
    rw [← hempty]
    exact hquarantine
  rw [hwide, hnarrow] at hperm
  exact absurd (List.Perm.length_eq hperm) (by decide)

end Awsnative
