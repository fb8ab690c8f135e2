import RealtimeFinance.Runs
import RealtimeFinance.Backfill.Loader
import RealtimeFinance.Awsnative.SilverKeys
import RealtimeFinance.Awsnative.GoldFidelity
/-!
# Resume — backfill runs, and what DONE promises

A run plans its window without the files recorded DONE, clears staging, loads the items, and runs three statements:
the outcomes into the manifest first, then staging into Silver and into Gold.  It can die between any two of them.  The
manifest says DONE from its own merge on, so a file is in the tables by then only if it was there before
(`doneTrusted_iff`).
-/
namespace Backfill

open Sql Runs Awsnative

inductive BackfillStatement
  | mergeManifestOutcomes
  | mergeSilverFromArchive
  | mergeGoldFromArchive
  deriving DecidableEq

/-- The order of `backfill_statements`. -/
def BackfillStatement.next : BackfillStatement → Option BackfillStatement
  | .mergeManifestOutcomes  => some .mergeSilverFromArchive
  | .mergeSilverFromArchive => some .mergeGoldFromArchive
  | .mergeGoldFromArchive   => none

inductive Phase
  | idle
  | loading (planned remaining : List WorkItem)
  | merging (statement : BackfillStatement)
  deriving DecidableEq

structure World where
  manifest : List ManifestRow
  /-- `backfill_outcomes`: nothing that a run does removes a row of it. -/
  outcomes : List OutcomeRow
  objects : Objects
  lake : Lake
  phase : Phase

def World.empty : World := ⟨[], [], [], Lake.empty, .idle⟩

inductive Event
  /-- `seed` plans the window and the machine clears staging. -/
  | starts (tier : Tier) (files : List ArchiveFile) (fresh : Bool)
  /-- One invocation of the loader, a retry of an item among them. -/
  | loads (item : WorkItem) (answer : String → Answer)
  | mapCompletes
  /-- The statement that is due runs, and may fail whatever it reads. -/
  | runs (now : Int) (fails : Bool)
  | aborts
  /-- A statement of the other machines. -/
  | pipeline (statement : Statement)

variable (hexMd5 : String → String) (lib : Stdlib) (archive : Archive)

def World.plan (w : World) (tier : Tier) (files : List ArchiveFile) (fresh : Bool) : List WorkItem :=
  Backfill.plan files (if fresh then [] else doneKeys tier w.manifest)

def World.exec (w : World) (now : Int) : BackfillStatement → Except Error World
  | .mergeManifestOutcomes => do
    let manifest ← mergeManifestOutcomes now w.outcomes w.manifest
    return { w with manifest }
  | .mergeSilverFromArchive => do
    let lake ← w.lake.exec hexMd5 (.mergeSilverFromArchive now ((w.objects.staged .hot).map stagedTrade))
    return { w with lake }
  | .mergeGoldFromArchive => do
    let lake ← w.lake.exec hexMd5 (.mergeGoldFromArchive now ((w.objects.staged .deep).map stagedKline))
    return { w with lake }

def Phase.after (statement : BackfillStatement) : Phase :=
  match statement.next with
  | some next => .merging next
  | none      => .idle

def World.starts (w : World) (items : List WorkItem) : World :=
  match w.phase, items with
  | .idle, item :: items =>
    { w with objects := w.objects.clearStaging, phase := .loading (item :: items) (item :: items) }
  | _, _ => w

def World.loads (w : World) (item : WorkItem) (answer : String → Answer) : World :=
  match w.phase, load lib archive answer item w.objects with
  | .loading planned remaining, some (objects, outcome) =>
    if item ∈ planned then
      { w with objects, outcomes := w.outcomes ++ [⟨item, outcome⟩], phase := .loading planned (remaining.erase item) }
    else w
  | _, _ => w

def World.mapCompletes (w : World) : World :=
  match w.phase with
  | .loading _ [] => { w with phase := .merging .mergeManifestOutcomes }
  | _             => w

def World.runs (w : World) (now : Int) (fails : Bool) : World :=
  match w.phase with
  | .merging statement =>
    match fails, w.exec hexMd5 now statement with
    | false, .ok w' => { w' with phase := .after statement }
    | _, _          => { w with phase := .idle }
  | _ => w

def World.step (w : World) : Event → World
  | .starts tier files fresh => w.starts (w.plan tier files fresh)
  | .loads item answer       => w.loads lib archive item answer
  | .mapCompletes            => w.mapCompletes
  | .runs now fails          => w.runs hexMd5 now fails
  | .aborts                  => { w with phase := .idle }
  | .pipeline statement      => { w with lake := w.lake.step hexMd5 statement }

/-! ## What DONE promises -/

/-- A line that the file of a manifest row stages. -/
def FileLine (r : ManifestRow) (line : String) : Prop :=
  ∃ digest lines body rowCount, readFile lib archive (fun _ => .served) r.archiveKey = .ok (digest, lines) ∧
    stage r.tier r.instrumentId r.venueSymbol lines = .ok (body, rowCount) ∧ line ∈ body

/-- The line's trade is in Silver, under its symbol, or its bar in Gold. -/
def InTables (lake : Lake) (tier : Tier) (line : String) : Prop :=
  match tier with
  | .hot  => (stagedTrade line).identity ∈ lake.silver.map SilverRow.identity
  | .deep => (stagedKline line).barKey ∈ lake.gold.map GoldRow.key

def Held (lake : Lake) (r : ManifestRow) : Prop := ∀ line, FileLine lib archive r line → InTables lake r.tier line

/-- **Every file recorded DONE is in the tables.** -/
def DoneTrusted (w : World) : Prop := ∀ r ∈ w.manifest, r.status = .done → Held lib archive w.lake r

/-- The manifest's merge is behind the run, and the tier's still to come. -/
def Phase.owes : Phase → Tier → Bool
  | .merging .mergeSilverFromArchive, _   => true
  | .merging .mergeGoldFromArchive, .deep => true
  | _, _                                  => false

/-- **The manifest's merge records DONE only files that are in the tables already.** -/
def RecordsHeld (w : World) (e : Event) : Prop :=
  ∀ now, e = .runs now false → w.phase = .merging .mergeManifestOutcomes →
    ∀ o ∈ recorded w.outcomes, o.outcome.status = .done → Held lib archive w.lake (manifestRow now o)

/-! ## The tables only grow -/

theorem mem_gold_of_merged {m : MergeInto GoldRow} (hm : ∀ s t, (m.whenMatched s t).key = t.key)
    {source gold gold' : List GoldRow} (h : m.run source gold = .ok gold') {k : BarKey}
    (hk : k ∈ gold.map GoldRow.key) : k ∈ gold'.map GoldRow.key := by
  obtain ⟨g, hg, rfl⟩ := List.mem_map.1 hk
  rw [MergeInto.run_ok h, List.map_append]
  refine List.mem_append_left _ (List.mem_map.2 ⟨m.updated source g, List.mem_map_of_mem hg, ?_⟩)
  exact MergeInto.updated_key hm source g

theorem InTables.step {lake : Lake} {tier : Tier} {line : String} (h : InTables lake tier line) (st : Statement) :
    InTables (lake.step hexMd5 st) tier line := by
  cases tier with
  | hot =>
    obtain ⟨s, hs, hid⟩ := List.mem_map.1 h
    exact List.mem_map.2 ⟨s, Lake.mem_step_silver hexMd5 hs, hid⟩
  | deep =>
    rcases lake.step_gold_cases hexMd5 st with ⟨now, lookbackDays, bronze, source, -, -, hrun⟩ |
      ⟨now, staging, source, -, -, hrun⟩ | hsame
    · exact mem_gold_of_merged goldMerge_keeps_key hrun h
    · exact mem_gold_of_merged goldArchiveMerge_keeps_key hrun h
    · show (stagedKline line).barKey ∈ (lake.step hexMd5 st).gold.map GoldRow.key
      rw [hsame]
      exact h

/-! ## What an event does -/

/-- **The manifest's merge**, which does not fail by itself. -/
theorem World.step_records {w : World} {now : Int} (h : w.phase = .merging .mergeManifestOutcomes) :
    w.step hexMd5 lib archive (.runs now false) =
      { w with manifest := manifestMerge.merged ((recorded w.outcomes).map (manifestRow now)) w.manifest
               phase := .merging .mergeSilverFromArchive } := by
  show w.runs hexMd5 now false = _
  unfold World.runs
  rw [h]
  simp only [World.exec, mergeManifestOutcomes_ok]
  rfl

/-- **What a statement that goes through does**: it merges the manifest, or takes a step of the lake. -/
theorem World.exec_ok {w w' : World} {now : Int} {statement : BackfillStatement}
    (h : w.exec hexMd5 now statement = .ok w') :
    (statement = .mergeManifestOutcomes ∧
      w' = { w with manifest := manifestMerge.merged ((recorded w.outcomes).map (manifestRow now)) w.manifest }) ∨
    (statement = .mergeSilverFromArchive ∧ ∃ st, st = .mergeSilverFromArchive now ((w.objects.staged .hot).map stagedTrade) ∧
      w.lake.commits hexMd5 st = true ∧ w' = { w with lake := w.lake.step hexMd5 st }) ∨
    (statement = .mergeGoldFromArchive ∧ ∃ st, st = .mergeGoldFromArchive now ((w.objects.staged .deep).map stagedKline) ∧
      w.lake.commits hexMd5 st = true ∧ w' = { w with lake := w.lake.step hexMd5 st }) := by
  have hlake : ∀ {st : Statement} {lake : Lake}, w.lake.exec hexMd5 st = .ok lake →
      w.lake.commits hexMd5 st = true ∧ lake = w.lake.step hexMd5 st := by
    intro st lake hexec
    unfold Lake.commits Lake.step
    rw [hexec]
    exact ⟨rfl, rfl⟩
  cases statement with
  | mergeManifestOutcomes =>
    obtain ⟨manifest, hmanifest, hw⟩ := bind_ok h
    rw [mergeManifestOutcomes_ok] at hmanifest
    cases hmanifest
    exact Or.inl ⟨rfl, (Except.ok.inj hw).symm⟩
  | mergeSilverFromArchive =>
    obtain ⟨lake, hexec, hw⟩ := bind_ok h
    obtain ⟨hcommits, rfl⟩ := hlake hexec
    exact Or.inr (Or.inl ⟨rfl, _, rfl, hcommits, (Except.ok.inj hw).symm⟩)
  | mergeGoldFromArchive =>
    obtain ⟨lake, hexec, hw⟩ := bind_ok h
    obtain ⟨hcommits, rfl⟩ := hlake hexec
    exact Or.inr (Or.inr ⟨rfl, _, rfl, hcommits, (Except.ok.inj hw).symm⟩)

/-- An event of a run before its statements. -/
structure Preparing (w w' : World) : Prop where
  manifest : w'.manifest = w.manifest
  lake : w'.lake = w.lake
  owed : ∀ tier, w.phase.owes tier = false
  owes : ∀ tier, w'.phase.owes tier = false

theorem World.starts_cases (w : World) (items : List WorkItem) :
    w.starts items = w ∨ Preparing w (w.starts items) := by
  unfold World.starts
  split
  · rename_i hphase
    refine Or.inr ⟨rfl, rfl, fun tier => ?_, fun tier => by cases tier <;> rfl⟩
    rw [hphase]
    cases tier <;> rfl
  · exact Or.inl rfl

theorem World.loads_cases (w : World) (item : WorkItem) (answer : String → Answer) :
    w.loads lib archive item answer = w ∨ Preparing w (w.loads lib archive item answer) := by
  unfold World.loads
  split
  · rename_i hphase _
    split
    · refine Or.inr ⟨rfl, rfl, fun tier => ?_, fun tier => by cases tier <;> rfl⟩
      rw [hphase]
      cases tier <;> rfl
    · exact Or.inl rfl
  · exact Or.inl rfl

theorem World.loads_ok (w : World) {item : WorkItem} {answer : String → Answer} {planned remaining : List WorkItem}
    {objects : Objects} {outcome : Outcome} (hphase : w.phase = .loading planned remaining)
    (hload : load lib archive answer item w.objects = some (objects, outcome)) (hmem : item ∈ planned) :
    w.loads lib archive item answer =
      { w with objects, outcomes := w.outcomes ++ [⟨item, outcome⟩], phase := .loading planned (remaining.erase item) } := by
  unfold World.loads
  rw [hphase, hload]
  exact if_pos hmem

theorem World.mapCompletes_cases (w : World) : w.mapCompletes = w ∨ Preparing w w.mapCompletes := by
  unfold World.mapCompletes
  split
  · rename_i hphase
    refine Or.inr ⟨rfl, rfl, fun tier => ?_, fun tier => by cases tier <;> rfl⟩
    rw [hphase]
    cases tier <;> rfl
  · exact Or.inl rfl

/-- **What an event does**: the manifest's merge, a merge of staging into the tables, the end of a run, an event before
the run's statements, a step of another machine, or nothing. -/
theorem World.step_cases (w : World) (e : Event) :
    (∃ now, e = .runs now false ∧ w.phase = .merging .mergeManifestOutcomes) ∨
    (∃ now statement w', e = .runs now false ∧ w.phase = .merging statement ∧ statement ≠ .mergeManifestOutcomes ∧
      w.exec hexMd5 now statement = .ok w' ∧ w.step hexMd5 lib archive e = { w' with phase := .after statement }) ∨
    (w.step hexMd5 lib archive e = { w with phase := .idle } ∧
      (e = .aborts ∨ ∃ now fails statement, e = .runs now fails ∧ w.phase = .merging statement ∧
        (fails = true ∨ ∃ error, w.exec hexMd5 now statement = .error error))) ∨
    Preparing w (w.step hexMd5 lib archive e) ∨
    (∃ st, e = .pipeline st ∧ w.step hexMd5 lib archive e = { w with lake := w.lake.step hexMd5 st }) ∨
    w.step hexMd5 lib archive e = w := by
  cases e with
  | starts tier files fresh =>
    rcases w.starts_cases (w.plan tier files fresh) with h | h
    · exact Or.inr (Or.inr (Or.inr (Or.inr (Or.inr h))))
    · exact Or.inr (Or.inr (Or.inr (Or.inl h)))
  | loads item answer =>
    rcases w.loads_cases lib archive item answer with h | h
    · exact Or.inr (Or.inr (Or.inr (Or.inr (Or.inr h))))
    · exact Or.inr (Or.inr (Or.inr (Or.inl h)))
  | mapCompletes =>
    rcases w.mapCompletes_cases with h | h
    · exact Or.inr (Or.inr (Or.inr (Or.inr (Or.inr h))))
    · exact Or.inr (Or.inr (Or.inr (Or.inl h)))
  | runs now fails =>
    cases hphase : w.phase with
    | idle | loading =>
      refine Or.inr (Or.inr (Or.inr (Or.inr (Or.inr ?_))))
      show w.runs hexMd5 now fails = w
      unfold World.runs
      rw [hphase]
    | merging statement =>
      have hstep : w.runs hexMd5 now fails = match fails, w.exec hexMd5 now statement with
          | false, .ok w' => { w' with phase := .after statement }
          | _, _          => { w with phase := .idle } := by
        unfold World.runs
        rw [hphase]
      cases fails with
      | true => exact Or.inr (Or.inr (Or.inl ⟨hstep, Or.inr ⟨now, true, statement, rfl, rfl, Or.inl rfl⟩⟩))
      | false =>
        cases hexec : w.exec hexMd5 now statement with
        | error error =>
          rw [hexec] at hstep
          exact Or.inr (Or.inr (Or.inl ⟨hstep, Or.inr ⟨now, false, statement, rfl, rfl, Or.inr ⟨error, hexec⟩⟩⟩))
        | ok w' =>
          rw [hexec] at hstep
          by_cases hmanifest : statement = .mergeManifestOutcomes
          · exact Or.inl ⟨now, rfl, by rw [hmanifest]⟩
          · exact Or.inr (Or.inl ⟨now, statement, w', rfl, rfl, hmanifest, hexec, hstep⟩)
  | aborts => exact Or.inr (Or.inr (Or.inl ⟨rfl, Or.inl rfl⟩))
  | pipeline st => exact Or.inr (Or.inr (Or.inr (Or.inr (Or.inl ⟨st, rfl, rfl⟩))))

/-! ## Every reachable state -/

/-- **Every step keeps what is in the tables**, and only the manifest's merge changes the manifest. -/
theorem World.step_keeps (w : World) (e : Event) :
    ((∃ now, e = .runs now false ∧ w.phase = .merging .mergeManifestOutcomes) ∨
      (w.step hexMd5 lib archive e).manifest = w.manifest) ∧
    ∀ {tier : Tier} {line : String}, InTables w.lake tier line → InTables (w.step hexMd5 lib archive e).lake tier line := by
  rcases w.step_cases hexMd5 lib archive e with ⟨now, rfl, hphase⟩ | ⟨now, statement, w', -, -, hne, hexec, hstep⟩ |
    ⟨hstep, -⟩ | hprepares | ⟨st, -, hstep⟩ | hstep
  · refine ⟨Or.inl ⟨now, rfl, hphase⟩, fun h => ?_⟩
    rw [World.step_records hexMd5 lib archive hphase]
    exact h
  · rw [hstep]
    rcases World.exec_ok hexMd5 hexec with ⟨hrecords, -⟩ | ⟨-, st, -, -, rfl⟩ | ⟨-, st, -, -, rfl⟩
    · exact absurd hrecords hne
    · exact ⟨Or.inr rfl, fun h => h.step hexMd5 st⟩
    · exact ⟨Or.inr rfl, fun h => h.step hexMd5 st⟩
  · rw [hstep]
    exact ⟨Or.inr rfl, fun h => h⟩
  · rw [hprepares.lake]
    exact ⟨Or.inr hprepares.manifest, fun h => h⟩
  · rw [hstep]
    exact ⟨Or.inr rfl, fun h => h.step hexMd5 st⟩
  · rw [hstep]
    exact ⟨Or.inr rfl, fun h => h⟩

theorem doneTrusted_step_iff {w : World} (hw : DoneTrusted lib archive w) (e : Event) :
    DoneTrusted lib archive (w.step hexMd5 lib archive e) ↔ RecordsHeld lib archive w e := by
  obtain ⟨hmanifest, htables⟩ := w.step_keeps hexMd5 lib archive e
  constructor
  · rintro h now rfl hphase o ho hdone
    rw [World.step_records hexMd5 lib archive hphase] at h
    exact h _ (mem_mergeManifestOutcomes.2 (Or.inl ⟨o, ho, rfl⟩)) hdone
  · rintro h r hr hdone
    rcases hmanifest with ⟨now, rfl, hphase⟩ | hsame
    · rw [World.step_records hexMd5 lib archive hphase] at hr ⊢
      rcases mem_mergeManifestOutcomes.1 hr with ⟨o, ho, rfl⟩ | ⟨hr, -⟩
      · exact h now rfl hphase o ho hdone
      · exact hw r hr hdone
    · rw [hsame] at hr
      exact fun line hline => htables (hw r hr hdone line hline)

/-! ## Between runs -/

/-- No Silver row and no other staged line has a staged line's `(venue, trade_id)` under another symbol. -/
def SymbolsApart (w : World) : Prop :=
  ∀ line ∈ w.objects.staged .hot,
    (∀ s ∈ w.lake.silver, s.key = (stagedTrade line).key → s.identity = (stagedTrade line).identity) ∧
    ∀ line' ∈ w.objects.staged .hot, (stagedTrade line').key = (stagedTrade line).key →
      (stagedTrade line').identity = (stagedTrade line).identity

/-- **A run that has recorded its outcomes completes**, each file it records DONE was in the tables or in staging, and the
merge into Silver finds no id under two symbols. -/
structure GoesThrough (w : World) (e : Event) : Prop where
  staged : ∀ now, e = .runs now false → w.phase = .merging .mergeManifestOutcomes →
    ∀ o ∈ recorded w.outcomes, o.outcome.status = .done → ∀ line, FileLine lib archive (manifestRow now o) line →
      InTables w.lake o.item.tier line ∨ line ∈ w.objects.staged o.item.tier
  symbols : ∀ now, e = .runs now false → w.phase = .merging .mergeSilverFromArchive → SymbolsApart w
  completes : w.phase.owes .deep = true → e ≠ .aborts ∧ ∀ now fails, e = .runs now fails →
    fails = false ∧ ∀ statement, w.phase = .merging statement → ∃ w', w.exec hexMd5 now statement = .ok w'

/-- Every file recorded DONE is in the tables, or in staging with its tier's merge to come. -/
def Kept (w : World) : Prop :=
  ∀ r ∈ w.manifest, r.status = .done → ∀ line, FileLine lib archive r line →
    InTables w.lake r.tier line ∨ w.phase.owes r.tier = true ∧ line ∈ w.objects.staged r.tier

/-- The merge into Silver brings in every staged trade, where no id has two symbols. -/
theorem silver_covers {w : World} {now : Int} (hsymbols : SymbolsApart w)
    (hc : w.lake.commits hexMd5 (.mergeSilverFromArchive now ((w.objects.staged .hot).map stagedTrade)) = true)
    {line : String} (hline : line ∈ w.objects.staged .hot) :
    InTables (w.lake.step hexMd5 (.mergeSilverFromArchive now ((w.objects.staged .hot).map stagedTrade))) .hot line := by
  obtain ⟨rows, hrows, hsilver⟩ := Lake.step_mergeSilverFromArchive hexMd5 hc
  obtain ⟨k, hk, hkline⟩ := source_of_staged hrows (List.mem_map_of_mem hline)
  obtain ⟨s, hs, hsk⟩ := silverMerge_keyed.covers_inserted hk
  have hkey : s.key = (stagedTrade line).key := hsk.trans hkline
  refine List.mem_map.2 ⟨s, ?_, ?_⟩
  · rw [hsilver]
    exact hs
  · rcases List.mem_append.1 hs with hold | hnew
    · exact (hsymbols line hline).1 s hold hkey
    · have hsource := mem_of_mem_rowNumberOne _ _ (MergeInto.mem_inserted.1 hnew).1
      obtain ⟨a, ha, hrow⟩ := (mapM_ok hrows).2 s hsource
      obtain ⟨line', hline', rfl⟩ := List.mem_map.1 ha
      rw [archiveRow_identity hrow]
      exact (hsymbols line hline).2 line' hline' ((archiveRow_key hrow).symm.trans hkey)

theorem gold_covers {lake : Lake} {now : Int} {lines : List String}
    (hc : lake.commits hexMd5 (.mergeGoldFromArchive now (lines.map stagedKline)) = true) {line : String}
    (hline : line ∈ lines) : InTables (lake.step hexMd5 (.mergeGoldFromArchive now (lines.map stagedKline))) .deep line := by
  obtain ⟨gold, hgold, he⟩ := bind_ok (Lake.exec_of_commits hexMd5 hc)
  rw [mergeGoldFromArchive_eq] at hgold
  obtain ⟨source, hsource, hrun⟩ := bind_ok hgold
  obtain ⟨rows, rfl, hfrom, hto⟩ := klineSource_ok hsource
  obtain ⟨r, hr, hrk, -⟩ := hto _ (List.mem_map_of_mem hline)
  obtain ⟨x, hx, hxr, -⟩ := rowNumberOne_covers Prod.fst (fun r => r.2.1) rows r hr
  obtain ⟨k, -, hxk, hrow⟩ := hfrom x (mem_of_mem_rowNumberOne _ _ hx)
  have hkey : x.2.2.key = (stagedKline line).barKey := by
    have hsame := hxk.symm.trans (hxr.trans hrk)
    rw [klineRow_key hrow]
    unfold StagedKline.barKey
    rw [(Prod.mk.inj hsame).1, (Prod.mk.inj hsame).2]
  have hmem : x.2.2 ∈ (rowNumberOne Prod.fst (fun r => r.2.1) rows).map (fun r => r.2.2) := List.mem_map_of_mem hx
  obtain ⟨g, hg, hgk⟩ : ∃ g ∈ goldArchiveMerge.merged _ lake.gold, g.key = x.2.2.key :=
    goldArchiveMerge_keyed.covers_merged goldArchiveMerge_keeps_key hmem
  refine List.mem_map.2 ⟨g, ?_, hgk.trans hkey⟩
  rw [← Except.ok.inj he, MergeInto.run_ok hrun]
  exact hg

theorem Phase.owes_none {phase : Phase} (h : phase.owes .deep = false) (tier : Tier) : phase.owes tier = false := by
  cases phase with
  | idle | loading => rfl
  | merging statement =>
    cases statement with
    | mergeManifestOutcomes => rfl
    | mergeSilverFromArchive | mergeGoldFromArchive => cases h

/-- **Where no table is owed a merge, DONE can be trusted.** -/
theorem Kept.doneTrusted {w : World} (hw : Kept lib archive w) (howes : ∀ tier, w.phase.owes tier = false) :
    DoneTrusted lib archive w := by
  intro r hr hdone line hline
  rcases hw r hr hdone line hline with hheld | ⟨howed, -⟩
  · exact hheld
  · rw [howes] at howed
    cases howed

theorem DoneTrusted.kept {w : World} (hw : DoneTrusted lib archive w) : Kept lib archive w :=
  fun r hr hdone line hline => Or.inl (hw r hr hdone line hline)

theorem kept_records {w : World} {now : Int} (hw : Kept lib archive w) (hphase : w.phase = .merging .mergeManifestOutcomes)
    (h : GoesThrough hexMd5 lib archive w (.runs now false)) :
    Kept lib archive (w.step hexMd5 lib archive (.runs now false)) := by
  have htrusted := hw.doneTrusted lib archive (fun tier => by rw [hphase]; rfl)
  rw [World.step_records hexMd5 lib archive hphase]
  intro r hr hdone line hline
  rcases mem_mergeManifestOutcomes.1 hr with ⟨o, ho, rfl⟩ | ⟨hr, -⟩
  · rcases h.staged now rfl hphase o ho hdone line hline with hheld | hstaged
    · exact Or.inl hheld
    · exact Or.inr ⟨rfl, hstaged⟩
  · exact Or.inl (htrusted r hr hdone line hline)

/-- A merge of staging pays what its tier was owed. -/
theorem kept_merges {w w' : World} {now : Int} {statement : BackfillStatement} (hw : Kept lib archive w)
    (hphase : w.phase = .merging statement) (hne : statement ≠ .mergeManifestOutcomes)
    (h : GoesThrough hexMd5 lib archive w (.runs now false)) (hexec : w.exec hexMd5 now statement = .ok w') :
    Kept lib archive { w' with phase := .after statement } := by
  rcases World.exec_ok hexMd5 hexec with ⟨hrecords, -⟩ | ⟨rfl, st, rfl, hc, rfl⟩ | ⟨rfl, st, rfl, hc, rfl⟩
  · exact absurd hrecords hne
  · intro r hr hdone line hline
    rcases hw r hr hdone line hline with hheld | ⟨-, hstaged⟩
    · exact Or.inl (hheld.step hexMd5 _)
    · show InTables _ r.tier line ∨ _
      generalize r.tier = tier at hstaged ⊢
      cases tier with
      | hot => exact Or.inl (silver_covers hexMd5 (h.symbols now rfl hphase) hc hstaged)
      | deep => exact Or.inr ⟨rfl, hstaged⟩
  · intro r hr hdone line hline
    rcases hw r hr hdone line hline with hheld | ⟨howes, hstaged⟩
    · exact Or.inl (hheld.step hexMd5 _)
    · rw [hphase] at howes
      show InTables _ r.tier line ∨ _
      generalize r.tier = tier at howes hstaged ⊢
      cases tier with
      | hot => cases howes
      | deep => exact Or.inl (gold_covers hexMd5 hc hstaged)

/-- A run that goes through ends only where nothing is owed. -/
theorem owes_of_ends {w : World} {e : Event} (h : GoesThrough hexMd5 lib archive w e)
    (hends : e = .aborts ∨ ∃ now fails statement, e = .runs now fails ∧ w.phase = .merging statement ∧
      (fails = true ∨ ∃ error, w.exec hexMd5 now statement = .error error)) : w.phase.owes .deep = false := by
  by_contra howes
  obtain ⟨hnot, hruns⟩ := h.completes (by simpa using howes)
  rcases hends with rfl | ⟨now, fails, statement, rfl, hphase, hfails⟩
  · exact hnot rfl
  · obtain ⟨rfl, hcommits⟩ := hruns now fails rfl
    obtain ⟨w', hw'⟩ := hcommits statement hphase
    rcases hfails with hfails | ⟨error, herror⟩
    · cases hfails
    · rw [hw'] at herror
      cases herror

/-- **A run that goes through keeps the promise.** -/
theorem kept_step {w : World} {e : Event} (hw : Kept lib archive w) (h : GoesThrough hexMd5 lib archive w e) :
    Kept lib archive (w.step hexMd5 lib archive e) := by
  rcases w.step_cases hexMd5 lib archive e with ⟨now, rfl, hphase⟩ | ⟨now, statement, w', rfl, hphase, hne, hexec, hstep⟩ |
    ⟨hstep, hends⟩ | hprepares | ⟨st, -, hstep⟩ | hstep
  · exact kept_records hexMd5 lib archive hw hphase h
  · rw [hstep]
    exact kept_merges hexMd5 lib archive hw hphase hne h hexec
  · have htrusted := hw.doneTrusted lib archive (Phase.owes_none (owes_of_ends hexMd5 lib archive h hends))
    rw [hstep]
    exact DoneTrusted.kept lib archive htrusted
  · have htrusted := hw.doneTrusted lib archive hprepares.owed
    intro r hr hdone line hline
    rw [hprepares.manifest] at hr
    rw [hprepares.lake]
    exact Or.inl (htrusted r hr hdone line hline)
  · rw [hstep]
    intro r hr hdone line hline
    rcases hw r hr hdone line hline with hheld | hstaged
    · exact Or.inl (hheld.step hexMd5 st)
    · exact Or.inr hstaged
  · rw [hstep]
    exact hw

theorem kept_empty : Kept lib archive World.empty := by
  intro r hr
  cases hr

/-- **DONE can be trusted in every reachable state exactly when** the manifest's merge never records a file before its
rows are in the tables; and between runs, where every run that has recorded its outcomes completes and merges no id of two
symbols. -/
theorem doneTrusted_iff (events : List Event) :
    (AllReached (World.step hexMd5 lib archive) (DoneTrusted lib archive) World.empty events ↔
      AllSteps (World.step hexMd5 lib archive) (RecordsHeld lib archive) World.empty events) ∧
    (AllSteps (World.step hexMd5 lib archive) (GoesThrough hexMd5 lib archive) World.empty events →
      AllReached (World.step hexMd5 lib archive) (fun w => w.phase = .idle → DoneTrusted lib archive w) World.empty
        events) := by
  constructor
  · refine AllSteps.congr (I := DoneTrusted lib archive) (fun w e hw => doneTrusted_step_iff hexMd5 lib archive hw e)
      (fun w e _ h => h) ?_
    intro r hr
    cases hr
  · intro h pre e post hevents hidle
    have hkept : AllReached (World.step hexMd5 lib archive) (Kept lib archive) World.empty events :=
      AllSteps.reached (fun w e hw h => kept_step hexMd5 lib archive hw h) events (kept_empty lib archive) h
    exact (hkept pre e post hevents).doneTrusted lib archive (fun tier => by rw [hidle]; rfl)

/-! ## A run that dies after the manifest -/

theorem ok_of_toOption {ε α : Type} {x : Except ε α} {a : α} (h : x.toOption = some a) : x = .ok a := by
  cases x with
  | error e => cases h
  | ok b => exact congrArg Except.ok (Option.some.inj h)

def octoberFourth : ArchiveFile :=
  { tier := .hot, instrumentId := "BTC-USD", venueSymbol := "BTCUSDT", granularity := .daily, period := "2024-10-04"
    dt := 20000 }

/-- It holds one trade. -/
def oneTradeArchive : Archive := fun url =>
  if url = urlOf octoberFourth.key then some "7,60000.5,0.25,7,7,1728000600000,True,True\n".toUTF8
  else if url = checksumUrlOf octoberFourth.key then
    some (String.ofList (List.replicate 64 'a') ++ "  BTCUSDT-aggTrades-2024-10-04.zip\n").toUTF8
  else none

/-- A zip that is its member, and one digest. -/
def plainZip : Stdlib where
  digestOf _ := String.ofList (List.replicate 64 'a')
  zipFile bytes := .ok [("BTCUSDT-aggTrades-2024-10-04.csv", .ok bytes)]

/-- What is staged of it. -/
def octoberLine : String := "BTC-USD,binance,BTCUSDT,7,60000.5,0.25,7,7,1728000600000000,SELL"

theorem octoberFourth_read : readFile plainZip oneTradeArchive (fun _ => .served) octoberFourth.key =
    .ok (String.ofList (List.replicate 64 'a'), ["7,60000.5,0.25,7,7,1728000600000,True,True"]) :=
  ok_of_toOption (by decide +kernel)

theorem octoberFourth_staged : stage .hot "BTC-USD" "BTCUSDT" ["7,60000.5,0.25,7,7,1728000600000,True,True"] =
    .ok ([octoberLine], 1) :=
  ok_of_toOption (by decide +kernel)

theorem fileLine_october {r : ManifestRow} (hkey : r.archiveKey = octoberFourth.key) (htier : r.tier = .hot)
    (hinstrument : r.instrumentId = "BTC-USD") (hsymbol : r.venueSymbol = "BTCUSDT") {line : String} :
    FileLine plainZip oneTradeArchive r line ↔ line = octoberLine := by
  unfold FileLine
  rw [hkey, htier, hinstrument, hsymbol, octoberFourth_read]
  constructor
  · rintro ⟨digest, lines, body, rowCount, hok, hstaged, hmem⟩
    cases hok
    rw [octoberFourth_staged] at hstaged
    cases hstaged
    exact List.mem_singleton.1 hmem
  · rintro rfl
    exact ⟨_, _, _, _, rfl, octoberFourth_staged, List.mem_singleton_self _⟩

/-- The file is loaded and recorded. -/
def recordedRun : List Event :=
  [.starts .hot [octoberFourth] false, .loads (workItem octoberFourth) (fun _ => .served), .mapCompletes,
    .runs 1728086400000 false]

def octoberOutcome : OutcomeRow :=
  ⟨workItem octoberFourth, .ofDone octoberFourth.key (String.ofList (List.replicate 64 'a')) 1⟩

/-- With the item planned, and with it loaded. -/
def plannedWorld : World := { World.empty with phase := .loading [workItem octoberFourth] [workItem octoberFourth] }

def stagedWorld : World :=
  { World.empty with outcomes := [octoberOutcome], objects := [((workItem octoberFourth).stagingKey, [octoberLine])]
                     phase := .loading [workItem octoberFourth] [] }

def loadedWorld : World := { stagedWorld with phase := .merging .mergeManifestOutcomes }

def recordedWorld : World := loadedWorld.step id plainZip oneTradeArchive (.runs 1728086400000 false)

theorem step_starts : World.empty.step id plainZip oneTradeArchive (.starts .hot [octoberFourth] false) = plannedWorld := rfl

theorem step_loads : plannedWorld.step id plainZip oneTradeArchive
    (.loads (workItem octoberFourth) (fun _ => .served)) = stagedWorld := by
  have hload := @load_ok plainZip oneTradeArchive _ (workItem octoberFourth) _ _ _ _ octoberFourth_read octoberFourth_staged
    plannedWorld.objects
  have hloads := plannedWorld.loads_ok plainZip oneTradeArchive rfl hload (List.mem_singleton_self _)
  rw [List.erase_cons_head] at hloads
  exact hloads

theorem step_mapCompletes : stagedWorld.step id plainZip oneTradeArchive .mapCompletes = loadedWorld := rfl

theorem foldl_recordedRun : recordedRun.foldl (World.step id plainZip oneTradeArchive) World.empty = recordedWorld := by
  simp only [recordedRun, List.foldl_cons, List.foldl_nil, step_starts, step_loads, step_mapCompletes, recordedWorld]

/-- And merged. -/
def wholeRun : List Event := recordedRun ++ [.runs 1728086400000 false, .runs 1728086400000 false]

def mergedWorld : World := recordedWorld.step id plainZip oneTradeArchive (.runs 1728086400000 false)

theorem goesThrough_preparing {w : World} {e : Event} (he : ∀ now fails, e ≠ .runs now fails)
    (howes : w.phase.owes .deep = false) : GoesThrough id plainZip oneTradeArchive w e where
  staged now h _ := absurd h (he now false)
  symbols now h _ := absurd h (he now false)
  completes h := by
    rw [howes] at h
    cases h

theorem goesThrough_records : GoesThrough id plainZip oneTradeArchive loadedWorld (.runs 1728086400000 false) := by
  have hphase : loadedWorld.phase = .merging .mergeManifestOutcomes := by decide +kernel
  have hstaged : loadedWorld.objects.staged .hot = [octoberLine] := by decide +kernel
  have hrecorded : (recorded loadedWorld.outcomes).map
      (fun o => (o.outcome.archiveKey, o.item.tier, o.item.instrumentId, o.item.venueSymbol)) =
        [(octoberFourth.key, .hot, "BTC-USD", "BTCUSDT")] := by decide +kernel
  refine ⟨fun now _ _ o ho _ line hline => Or.inr ?_, fun now _ hsilver => ?_, fun howes => ?_⟩
  · have hmem := List.mem_map_of_mem (f := fun o : OutcomeRow =>
      (o.outcome.archiveKey, o.item.tier, o.item.instrumentId, o.item.venueSymbol)) ho
    rw [hrecorded, List.mem_singleton] at hmem
    simp only [Prod.mk.injEq] at hmem
    obtain ⟨hkey, htier, hinstrument, hsymbol⟩ := hmem
    rw [htier, hstaged, (fileLine_october hkey htier hinstrument hsymbol).1 hline]
    exact List.mem_singleton_self _
  · rw [hphase] at hsilver
    cases hsilver
  · rw [hphase] at howes
    cases howes

theorem goesThrough_merges {w : World} {statement : BackfillStatement} (hphase : w.phase = .merging statement)
    (hmerges : statement ≠ .mergeManifestOutcomes) (hsymbols : SymbolsApart w)
    (hexec : (w.exec id 1728086400000 statement).toOption.isSome = true) :
    GoesThrough id plainZip oneTradeArchive w (.runs 1728086400000 false) := by
  refine ⟨fun now _ hmanifest => ?_, fun _ _ _ => hsymbols, fun _ => ⟨by simp, fun now fails he => ?_⟩⟩
  · rw [hphase] at hmanifest
    cases hmanifest
    exact absurd rfl hmerges
  · cases he
    refine ⟨rfl, fun statement' hsame => ?_⟩
    rw [hphase] at hsame
    cases hsame
    obtain ⟨w', hw⟩ := Option.isSome_iff_exists.1 hexec
    exact ⟨w', ok_of_toOption hw⟩

/-- Its trade is in Silver. -/
theorem doneTrusted_iff_wholeRun :
    mergedWorld.lake.silver.map SilverRow.identity = [(stagedTrade octoberLine).identity] ∧
      AllReached (World.step id plainZip oneTradeArchive)
        (fun w => w.phase = .idle → DoneTrusted plainZip oneTradeArchive w) World.empty wholeRun := by
  have hsilver : mergedWorld.lake.silver.map SilverRow.identity = [(stagedTrade octoberLine).identity] := by decide +kernel
  refine ⟨hsilver, (doneTrusted_iff id plainZip oneTradeArchive wholeRun).2 ?_⟩
  have happart : ∀ w : World, w.objects.staged .hot = [octoberLine] →
      (∀ s ∈ w.lake.silver, s.identity = (stagedTrade octoberLine).identity) → SymbolsApart w := by
    intro w hstaged hrows line hline
    rw [hstaged, List.mem_singleton] at hline
    refine ⟨fun s hs _ => hline ▸ hrows s hs, fun line' hline' _ => ?_⟩
    rw [hstaged, List.mem_singleton] at hline'
    rw [hline, hline']
  simp only [wholeRun, recordedRun, List.cons_append, List.nil_append, allSteps_cons, step_starts, step_loads,
    step_mapCompletes]
  refine ⟨goesThrough_preparing (by simp) rfl, goesThrough_preparing (by simp) rfl, goesThrough_preparing (by simp) rfl,
    goesThrough_records, @goesThrough_merges recordedWorld .mergeSilverFromArchive ?_ (by simp) ?_ ?_,
    @goesThrough_merges mergedWorld .mergeGoldFromArchive ?_ (by simp) ?_ ?_, allSteps_nil _⟩
  · decide +kernel
  · refine happart _ (by decide +kernel) (fun s hs => ?_)
    have hnone : recordedWorld.lake.silver = [] := by decide +kernel
    rw [hnone] at hs
    cases hs
  · decide +kernel
  · decide +kernel
  · refine happart _ (by decide +kernel) (fun s hs => ?_)
    have hmem := List.mem_map_of_mem (f := SilverRow.identity) hs
    rw [hsilver, List.mem_singleton] at hmem
    exact hmem
  · decide +kernel

/-- And the merge into Silver fails. -/
def abortedRun : List Event := recordedRun ++ [.runs 1728086400000 true]

def abortedWorld : World :=
  (recordedRun.foldl (World.step id plainZip oneTradeArchive) World.empty).step id plainZip oneTradeArchive
    (.runs 1728086400000 true)

theorem aborted_run_is_never_resumed :
    ¬ AllReached (World.step id plainZip oneTradeArchive) (DoneTrusted plainZip oneTradeArchive) World.empty abortedRun ∧
      abortedWorld.phase = .idle ∧ abortedWorld.plan .hot [octoberFourth] false = [] := by
  have hrun : abortedWorld.phase = .idle ∧ abortedWorld.plan .hot [octoberFourth] false = [] ∧
      abortedWorld.lake.silver = [] ∧
      abortedWorld.manifest.map (fun r => (r.archiveKey, r.tier, r.instrumentId, r.venueSymbol, r.status)) =
        [(octoberFourth.key, .hot, "BTC-USD", "BTCUSDT", .done)] := by
    unfold abortedWorld
    rw [foldl_recordedRun]
    decide +kernel
  obtain ⟨hphase, hplan, hsilver, hmanifest⟩ := hrun
  refine ⟨fun h => ?_, hphase, hplan⟩
  have htrusted : DoneTrusted plainZip oneTradeArchive abortedWorld :=
    h recordedRun (.runs 1728086400000 true) [] rfl
  obtain ⟨r, hr, hrow⟩ := List.mem_map.1 (show (octoberFourth.key, Tier.hot, "BTC-USD", "BTCUSDT", Status.done) ∈
    abortedWorld.manifest.map (fun r => (r.archiveKey, r.tier, r.instrumentId, r.venueSymbol, r.status)) by
      rw [hmanifest]; exact List.mem_singleton.2 rfl)
  simp only [Prod.mk.injEq] at hrow
  obtain ⟨hkey, htier, hinstrument, hsymbol, hdone⟩ := hrow
  have hheld := htrusted r hr hdone _ ((fileLine_october hkey htier hinstrument hsymbol).2 rfl)
  rw [htier] at hheld
  have hmem : (stagedTrade octoberLine).identity ∈ abortedWorld.lake.silver.map SilverRow.identity := hheld
  rw [hsilver] at hmem
  cases hmem

end Backfill
