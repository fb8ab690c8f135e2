import RealtimeFinance.Python.Json
import RealtimeFinance.Python.Template
/-!
# Render — the SQL files, rendered by Python and by Terraform

The files under `awsnative/sql` are read by `render.py` and by the `templatefile` of two Terraform modules.  They keep to a
dialect that both read alike: braced placeholders with known names, no other dollar, no directive and no carriage return
(`Shared`).  On such files the two renderers give the same statements, or neither gives any: the merges of the
micro-batch and of the enrichment, and the maintenance of the six tables (`renderParity`).
-/
namespace Awsnative.Render

open Python

/-- The text of a file as it is stored, by its path under `SQL_DIR`. -/
abbrev SqlDir := String → List Char

/-- The characters of a file as text: a newline right behind a carriage return belongs to it. -/
def readTextFrom : Bool → List Char → List Char
  | _, []                => []
  | afterReturn, c :: cs =>
    if c = '\r' then '\n' :: readTextFrom true cs
    else if afterReturn && c = '\n' then readTextFrom false cs
    else c :: readTextFrom false cs

/-- `Path.read_text`. -/
def readText (text : List Char) : List Char := readTextFrom false text

/-- `read_sql`. -/
def readSql (dir : SqlDir) (path : String) : List Char := readText (dir path)

/-- `KNOWN_PLACEHOLDERS`. -/
def knownPlaceholders : List String :=
  ["database", "warehouse", "lookback_days", "valid_expr", "dirty_cte", "projection_start_date", "instrument_id", "table",
   "partition_predicate", "tier", "freshness_expr", "quarantine_expr"]

/-- The keyword arguments, by name. -/
def arguments (params : Dict (List Char)) : Params := fun name => params.get? (String.ofList name)

/-- `render`. -/
def render (text : List Char) (params : Dict (List Char)) : Except TemplateError (List Char) :=
  substitute (arguments params) text

def mergeSilver : String := "merge_silver_trades.sql"

def mergeQuarantine : String := "merge_silver_quarantine.sql"

def mergeGold : String := "merge_gold_bars_1m.sql"

def mergeManifestOutcomes : String := "merge_manifest_outcomes.sql"

def mergeSilverArchive : String := "merge_silver_from_archive.sql"

def mergeGoldArchive : String := "merge_gold_from_archive.sql"

def mergePerpContext : String := "merge_silver_perp_context.sql"

def mergeMacro : String := "merge_silver_macro.sql"

def optimizeTable : String := "optimize_table.sql"

def vacuumTable : String := "vacuum_table.sql"

def digits (n : Int) : List Char := (toString n).toList

section Python

variable (dir : SqlDir) (database : String) (lookbackDays : Int)

/-- `valid_expr`. -/
def validExpr : List Char := readSql dir "fragments/valid_trade.sql"

/-- `dirty_from_bronze`. -/
def dirtyFromBronze : Except TemplateError (List Char) :=
  render (readSql dir "fragments/dirty_from_bronze.sql") [("database", database.toList), ("lookback_days", digits lookbackDays)]

/-- `merge_statements`. -/
def mergeStatements : Except TemplateError (Dict (List Char)) := do
  let silver ← render (readSql dir mergeSilver)
    [("database", database.toList), ("lookback_days", digits lookbackDays), ("valid_expr", validExpr dir)]
  let quarantine ← render (readSql dir mergeQuarantine)
    [("database", database.toList), ("lookback_days", digits lookbackDays), ("valid_expr", validExpr dir)]
  let dirtyCte ← dirtyFromBronze dir database lookbackDays
  let gold ← render (readSql dir mergeGold) [("database", database.toList), ("dirty_cte", dirtyCte)]
  return [(mergeSilver, silver), (mergeQuarantine, quarantine), (mergeGold, gold)]

/-- `backfill_statements`. -/
def backfillStatements : Except TemplateError (Dict (List Char)) :=
  [mergeManifestOutcomes, mergeSilverArchive, mergeGoldArchive].mapM (fun name => do
    let statement ← render (readSql dir name) [("database", database.toList)]
    return (name, statement))

/-- `enrichment_statements`. -/
def enrichmentStatements : Except TemplateError (Dict (List Char)) := do
  let perp ← render (readSql dir mergePerpContext) [("database", database.toList), ("lookback_days", digits lookbackDays)]
  let macroMerge ← render (readSql dir mergeMacro) [("database", database.toList)]
  return [(mergePerpContext, perp), (mergeMacro, macroMerge)]

/-- `MAINTENANCE_PARTITION_PREDICATES`. -/
def maintenancePartitionPredicates : Dict (List Char) :=
  let days := "${lookback_days}".toList
  [("silver_trades", "event_ts >= current_date - interval '".toList ++ days ++ "' day".toList),
   ("silver_trades_quarantine",
    "ingest_date >= date_format(current_date - interval '".toList ++ days ++ "' day, '%Y-%m-%d')".toList),
   ("gold_bars_1m", "window_end_ts >= current_date - interval '".toList ++ days ++ "' day".toList),
   ("silver_perp_context", "snapshot_ts >= current_date - interval '".toList ++ days ++ "' day".toList),
   ("native_health_metrics", "metric_ts >= current_date - interval '".toList ++ days ++ "' day".toList)]

/-- `MAINTAINED_TABLES`. -/
def maintainedTables : List String :=
  ["silver_trades", "silver_trades_quarantine", "gold_bars_1m", "silver_perp_context", "silver_macro",
   "native_health_metrics"]

/-- The statements of a table under maintenance. -/
structure Maintenance where
  vacuum : List Char
  optimize : Option (List Char)
  deriving DecidableEq

/-- One table of `maintenance_statements`. -/
def maintenanceOf (table : String) : Except TemplateError Maintenance := do
  let vacuum ← render (readSql dir vacuumTable) [("database", database.toList), ("table", table.toList)]
  match maintenancePartitionPredicates.get? table with
  | none                   => return ⟨vacuum, none⟩
  | some predicateTemplate => do
    let predicate ← render predicateTemplate [("lookback_days", digits lookbackDays)]
    let optimize ← render (readSql dir optimizeTable)
      [("database", database.toList), ("table", table.toList), ("partition_predicate", predicate)]
    return ⟨vacuum, some optimize⟩

/-- `maintenance_statements`. -/
def maintenanceStatements : Except TemplateError (List (String × Maintenance)) :=
  maintainedTables.mapM (fun table => (maintenanceOf dir database lookbackDays table).map (table, ·))

end Python

/-! ## Terraform -/

/-- The known placeholder that follows a dollar. -/
def variableAt (cs : List Char) : Option (List Char) :=
  (knownPlaceholders.map String.toList).find? (fun name => ('\x7b' :: (name ++ ['\x7d'])).isPrefixOf cs)

/-- `templatefile`, from a place of the text on; `other` is what it makes of the rest from any other interpolation, escape
or directive on. -/
def templatefileFrom (other : List Char → Option (List Char)) (vars : Params) : Nat → List Char → Option (List Char)
  | _, []          => some []
  | n + 1, _ :: cs => templatefileFrom other vars n cs
  | 0, c :: cs     =>
    if c = '$' then
      (variableAt cs).elim (other (c :: cs)) (fun name =>
        (vars name).bind (fun value => (templatefileFrom other vars (name.length + 2) cs).map (value ++ ·)))
    else if c = '%' ∧ cs.head? = some '\x7b' then other (c :: cs)
    else (templatefileFrom other vars 0 cs).map (c :: ·)

/-- The locals of a module: what `templatefile` gives for each, if anything. -/
structure Medallion where
  mergeSilver : Option (List Char)
  mergeQuarantine : Option (List Char)
  mergeGold : Option (List Char)
  optimizeSql : Dict (Option (List Char))
  vacuumSql : Dict (Option (List Char))

structure Enrichment where
  mergePerpContext : Option (List Char)
  mergeMacro : Option (List Char)
  optimizeSql : Dict (Option (List Char))
  vacuumSql : Dict (Option (List Char))

section Terraform

variable (other : List Char → Option (List Char)) (dir : SqlDir) (database : String) (lookbackDays : Int)

def templatefile (path : String) (vars : Dict (List Char)) : Option (List Char) :=
  templatefileFrom other (arguments vars) 0 (dir path)

/-- `maintenance_predicates`. -/
def maintenancePredicates : Dict (List Char) :=
  [("silver_trades", "event_ts >= current_date - interval '".toList ++ digits lookbackDays ++ "' day".toList),
   ("silver_trades_quarantine", "ingest_date >= date_format(current_date - interval '".toList ++ digits lookbackDays ++
    "' day, '%Y-%m-%d')".toList),
   ("gold_bars_1m", "window_end_ts >= current_date - interval '".toList ++ digits lookbackDays ++ "' day".toList),
   ("native_health_metrics", "metric_ts >= current_date - interval '".toList ++ digits lookbackDays ++ "' day".toList)]

/-- `perp_maintenance_predicate`. -/
def perpMaintenancePredicate : List Char :=
  "snapshot_ts >= current_date - interval '".toList ++ digits lookbackDays ++ "' day".toList

def optimizeSql (table : String) (predicate : List Char) : Option (List Char) :=
  templatefile other dir "optimize_table.sql"
    [("database", database.toList), ("table", table.toList), ("partition_predicate", predicate)]

def vacuumSql (table : String) : Option (List Char) :=
  templatefile other dir "vacuum_table.sql" [("database", database.toList), ("table", table.toList)]

def nativeMedallion : Medallion :=
  let validExpr := dir "fragments/valid_trade.sql"
  let dirtyCte := templatefile other dir "fragments/dirty_from_bronze.sql"
    [("database", database.toList), ("lookback_days", digits lookbackDays)]
  { mergeSilver := templatefile other dir "merge_silver_trades.sql"
      [("database", database.toList), ("lookback_days", digits lookbackDays), ("valid_expr", validExpr)]
    mergeQuarantine := templatefile other dir "merge_silver_quarantine.sql"
      [("database", database.toList), ("lookback_days", digits lookbackDays), ("valid_expr", validExpr)]
    mergeGold := dirtyCte.bind (fun dirtyCte =>
      templatefile other dir "merge_gold_bars_1m.sql" [("database", database.toList), ("dirty_cte", dirtyCte)])
    optimizeSql := (maintenancePredicates lookbackDays).map (fun p => (p.1, optimizeSql other dir database p.1 p.2))
    vacuumSql := (maintenancePredicates lookbackDays).map (fun p => (p.1, vacuumSql other dir database p.1)) }

/-- The merges of the micro-batch, by their files. -/
def terraformMerges : Option (Dict (List Char)) := do
  let medallion := nativeMedallion other dir database lookbackDays
  let silver ← medallion.mergeSilver
  let quarantine ← medallion.mergeQuarantine
  let gold ← medallion.mergeGold
  return [(mergeSilver, silver), (mergeQuarantine, quarantine), (mergeGold, gold)]

def nativeEnrichment : Enrichment where
  mergePerpContext := templatefile other dir "merge_silver_perp_context.sql"
    [("database", database.toList), ("lookback_days", digits lookbackDays)]
  mergeMacro := templatefile other dir "merge_silver_macro.sql" [("database", database.toList)]
  optimizeSql := [("silver_perp_context",
    optimizeSql other dir database "silver_perp_context" (perpMaintenancePredicate lookbackDays))]
  vacuumSql := ["silver_perp_context", "silver_macro"].map (fun table => (table, vacuumSql other dir database table))

/-- The merges of the enrichment, by their files. -/
def terraformEnrichmentMerges : Option (Dict (List Char)) := do
  let enrichment := nativeEnrichment other dir database lookbackDays
  let perp ← enrichment.mergePerpContext
  let macroMerge ← enrichment.mergeMacro
  return [(mergePerpContext, perp), (mergeMacro, macroMerge)]

/-- The statements of a table under maintenance, by the module that maintains it. -/
def terraformMaintenance (table : String) : Option Maintenance := do
  let medallion := nativeMedallion other dir database lookbackDays
  let enrichment := nativeEnrichment other dir database lookbackDays
  let vacuum ← ((medallion.vacuumSql ++ enrichment.vacuumSql).get? table).join
  match (medallion.optimizeSql ++ enrichment.optimizeSql).get? table with
  | none          => some ⟨vacuum, none⟩
  | some optimize => optimize.map (fun optimize => ⟨vacuum, some optimize⟩)

end Terraform

/-! ## The dialect that both read -/

/-- What both read alike: known placeholders, braced, no directive, and newlines alone for line ends. -/
structure Shared (text : List Char) : Prop where
  template : ∃ t : Template, t.text = text ∧ .dollar ∉ t ∧
    ∀ name h, Piece.slot name h ∈ t → String.ofList name ∈ knownPlaceholders
  directive : ¬ ['%', '\x7b'] <:+: text
  lineEnds : '\r' ∉ text

theorem readText_of_newlines {text : List Char} (h : '\r' ∉ text) : readText text = text := by
  unfold readText
  induction text with
  | nil => rfl
  | cons c text ih =>
    have hc : c ≠ '\r' := fun heq => h (heq ▸ List.mem_cons_self ..)
    rw [readTextFrom, if_neg hc, if_neg (by simp), ih (fun hmem => h (List.mem_cons_of_mem c hmem))]

section Parity

variable {name rest : List Char}

theorem prefix_braced_iff {other : List Char} (hother : '\x7d' ∉ other) (hname : '\x7d' ∉ name) (rest : List Char) :
    ('\x7b' :: (other ++ ['\x7d'])) <+: ('\x7b' :: (name ++ '\x7d' :: rest)) ↔ other = name := by
  rw [List.cons_prefix_cons, and_iff_right rfl]
  constructor
  · rintro ⟨tail, htail⟩
    rw [List.append_assoc, List.singleton_append] at htail
    rcases List.append_eq_append_iff.1 htail with ⟨as, hname', has⟩ | ⟨bs, hother', hbs⟩
    · cases as with
      | nil => rw [hname', List.append_nil]
      | cons a as =>
        rw [List.cons_append, List.cons.injEq] at has
        exact absurd (by rw [hname', ← has.1]; simp) hname
    · cases bs with
      | nil => rw [hother', List.append_nil]
      | cons b bs =>
        rw [List.cons_append, List.cons.injEq] at hbs
        exact absurd (by rw [hother', ← hbs.1]; simp) hother
  · rintro rfl
    exact ⟨rest, by rw [List.append_assoc, List.singleton_append]⟩

theorem not_brace_of_known : ∀ known ∈ knownPlaceholders, '\x7d' ∉ known.toList := by decide

theorem variableAt_slot (h : String.ofList name ∈ knownPlaceholders) (rest : List Char) :
    variableAt ('\x7b' :: (name ++ '\x7d' :: rest)) = some name := by
  have hname : '\x7d' ∉ name := by
    have hknown := not_brace_of_known _ h
    rwa [String.toList_ofList] at hknown
  have hfound : ∀ known ∈ knownPlaceholders.map String.toList,
      (('\x7b' :: (known ++ ['\x7d'])).isPrefixOf ('\x7b' :: (name ++ '\x7d' :: rest)) = true ↔ known = name) := by
    intro known hknown
    obtain ⟨k, hk, rfl⟩ := List.mem_map.1 hknown
    rw [List.isPrefixOf_iff_prefix, prefix_braced_iff (not_brace_of_known k hk) hname]
  have hmem : name ∈ knownPlaceholders.map String.toList :=
    List.mem_map.2 ⟨String.ofList name, h, String.toList_ofList⟩
  unfold variableAt
  cases hfind : (knownPlaceholders.map String.toList).find?
      (fun known => ('\x7b' :: (known ++ ['\x7d'])).isPrefixOf ('\x7b' :: (name ++ '\x7d' :: rest))) with
  | none => exact absurd ((hfound name hmem).2 rfl) (List.find?_eq_none.1 hfind name hmem)
  | some found =>
    have hpos : ('\x7b' :: (found ++ ['\x7d'])).isPrefixOf ('\x7b' :: (name ++ '\x7d' :: rest)) = true :=
      (List.find?_eq_some_iff_append.1 hfind).1
    rw [(hfound found (List.mem_of_find?_eq_some hfind)).1 hpos]

variable {other : List Char → Option (List Char)} {vars : Params}

theorem templatefileFrom_skip : ∀ (skipped rest : List Char),
    templatefileFrom other vars skipped.length (skipped ++ rest) = templatefileFrom other vars 0 rest
  | [], rest           => rfl
  | c :: skipped, rest => by
    rw [List.cons_append, List.length_cons, templatefileFrom, templatefileFrom_skip skipped rest]

/-- **The renderers agree on a template of the dialect.** -/
theorem templatefileFrom_text : ∀ t : Template, .dollar ∉ t →
    (∀ name h, Piece.slot name h ∈ t → String.ofList name ∈ knownPlaceholders) → ¬ ['%', '\x7b'] <:+: t.text →
    templatefileFrom other vars 0 t.text = (t.fill vars.item).toOption
  | [], _, _, _                                   => rfl
  | .dollar :: t, hdollar, _, _                   => absurd (List.mem_cons_self ..) hdollar
  | .literal c plain :: t, hdollar, hknown, hfree => by
    have htext : Template.text (.literal c plain :: t) = c :: Template.text t := rfl
    rw [htext] at hfree ⊢
    have hrest := templatefileFrom_text t (fun h => hdollar (List.mem_cons_of_mem _ h))
      (fun name h hmem => hknown name h (List.mem_cons_of_mem _ hmem)) (fun h => hfree (List.infix_cons h))
    have hplain : ¬ (c = '%' ∧ (Template.text t).head? = some '\x7b') := by
      rintro ⟨rfl, hhead⟩
      obtain ⟨tail, htail⟩ := List.head?_eq_some_iff.1 hhead
      exact hfree ⟨[], tail, by rw [htail]; rfl⟩
    rw [templatefileFrom, if_neg plain, if_neg hplain, hrest, Template.fill]
    cases Template.fill vars.item t <;> rfl
  | .slot name h :: t, hdollar, hknown, hfree     => by
    have htext : Template.text (.slot name h :: t) = '$' :: ('\x7b' :: (name ++ '\x7d' :: Template.text t)) := by
      show (Piece.slot name h).text ++ Template.text t = _
      rw [Piece.text]
      simp
    rw [htext] at hfree ⊢
    have hrest := templatefileFrom_text t (fun h => hdollar (List.mem_cons_of_mem _ h))
      (fun name h hmem => hknown name h (List.mem_cons_of_mem _ hmem))
      (fun h => hfree (h.trans ⟨'$' :: '\x7b' :: (name ++ ['\x7d']), [], by simp⟩))
    have hskip := @templatefileFrom_skip other vars ('\x7b' :: (name ++ ['\x7d'])) (Template.text t)
    have hcs : '\x7b' :: (name ++ '\x7d' :: Template.text t) = '\x7b' :: (name ++ ['\x7d']) ++ Template.text t := by
      simp
    have hwidth : name.length + 2 = ('\x7b' :: (name ++ ['\x7d'])).length := by simp
    rw [templatefileFrom, if_pos rfl, variableAt_slot (hknown name h (List.mem_cons_self ..)), Option.elim_some, hcs,
      hwidth, hskip, hrest, Template.fill, Piece.fill, Params.item]
    cases vars name with
    | none => rfl
    | some value => cases Template.fill vars.item t <;> rfl

theorem templatefile_eq {dir : SqlDir} {path : String} (h : Shared (dir path)) (vars : Dict (List Char)) :
    templatefile other dir path vars = (render (readSql dir path) vars).toOption := by
  obtain ⟨⟨t, ht, hdollar, hknown⟩, hfree, hnewlines⟩ := h
  rw [templatefile, render, readSql, readText_of_newlines hnewlines, ← ht]
  rw [← ht] at hfree
  rw [templatefileFrom_text t hdollar hknown hfree, substitute_text]

end Parity

/-- The files that both render. -/
def sharedFiles : List String :=
  ["fragments/dirty_from_bronze.sql", mergeSilver, mergeQuarantine, mergeGold, mergePerpContext, mergeMacro, optimizeTable,
   vacuumTable]

section Statements

variable {other : List Char → Option (List Char)} {dir : SqlDir} {database : String} {lookbackDays : Int}

theorem lookbackDays_isIdentifier : IsIdentifier "lookback_days".toList where
  start := ⟨'l', "ookback_days".toList, rfl, rfl⟩
  part := List.all_eq_true.1 rfl

theorem render_lookbackDays {pre post : List Char} (hpre : '$' ∉ pre) (hpost : '$' ∉ post) :
    render (pre ++ "${lookback_days}".toList ++ post) [("lookback_days", digits lookbackDays)] =
      .ok (pre ++ digits lookbackDays ++ post) :=
  substitute_between hpre hpost lookbackDays_isIdentifier rfl

/-- The two predicates of a table are one text. -/
theorem render_predicate {table : String} {predicate : List Char} (h : (table, predicate) ∈
      maintenancePredicates lookbackDays ++ [("silver_perp_context", perpMaintenancePredicate lookbackDays)]) :
    ∃ template, maintenancePartitionPredicates.get? table = some template ∧
      render template [("lookback_days", digits lookbackDays)] = .ok predicate := by
  have hday : '$' ∉ "' day".toList := by decide
  simp only [maintenancePredicates, List.cons_append, List.nil_append, List.mem_cons, List.not_mem_nil, or_false,
    Prod.mk.injEq] at h
  rcases h with ⟨rfl, rfl⟩ | ⟨rfl, rfl⟩ | ⟨rfl, rfl⟩ | ⟨rfl, rfl⟩ | ⟨rfl, rfl⟩
  · exact ⟨_, rfl, render_lookbackDays (by decide) hday⟩
  · exact ⟨_, rfl, render_lookbackDays (by decide) (by decide)⟩
  · exact ⟨_, rfl, render_lookbackDays (by decide) hday⟩
  · exact ⟨_, rfl, render_lookbackDays (by decide) hday⟩
  · exact ⟨_, rfl, render_lookbackDays (by decide) hday⟩

theorem maintenanceOf_windowed {table : String} {predicate : List Char} (h : (table, predicate) ∈
      maintenancePredicates lookbackDays ++ [("silver_perp_context", perpMaintenancePredicate lookbackDays)]) :
    maintenanceOf dir database lookbackDays table =
      (render (readSql dir vacuumTable) [("database", database.toList), ("table", table.toList)]).bind (fun vacuum =>
        (render (readSql dir optimizeTable)
          [("database", database.toList), ("table", table.toList), ("partition_predicate", predicate)]).map
          (fun optimize => ⟨vacuum, some optimize⟩)) := by
  obtain ⟨template, htemplate, hrender⟩ := render_predicate h
  unfold maintenanceOf
  rw [htemplate]
  dsimp only
  rw [hrender]
  rfl

theorem maintenanceOf_silverMacro : maintenanceOf dir database lookbackDays "silver_macro" =
    (render (readSql dir vacuumTable) [("database", database.toList), ("table", "silver_macro".toList)]).map
      (fun vacuum => ⟨vacuum, none⟩) := by
  unfold maintenanceOf
  rw [show maintenancePartitionPredicates.get? "silver_macro" = none from rfl]
  rfl

theorem toOption_bind {ε α β : Type} (x : Except ε α) (f : α → Except ε β) :
    (x >>= f).toOption = x.toOption.bind (fun a => (f a).toOption) := by
  cases x <;> rfl

theorem toOption_map {ε α β : Type} (x : Except ε α) (f : α → β) : (x.map f).toOption = x.toOption.map f := by
  cases x <;> rfl

/-- **The renderers agree on the maintenance of a table.** -/
theorem maintenanceOf_eq (hoptimize : Shared (dir optimizeTable)) (hvacuum : Shared (dir vacuumTable)) {table : String}
    (htable : table ∈ maintainedTables) :
    (maintenanceOf dir database lookbackDays table).toOption = terraformMaintenance other dir database lookbackDays table := by
  have hvacuumSql : ∀ table, vacuumSql other dir database table = (render (readSql dir vacuumTable) _).toOption :=
    fun table => templatefile_eq hvacuum _
  have hoptimizeSql : ∀ table predicate,
      optimizeSql other dir database table predicate = (render (readSql dir optimizeTable) _).toOption :=
    fun table predicate => templatefile_eq hoptimize _
  have hwindowed : ∀ predicate, (table, predicate) ∈
        maintenancePredicates lookbackDays ++ [("silver_perp_context", perpMaintenancePredicate lookbackDays)] →
      (maintenanceOf dir database lookbackDays table).toOption =
        (vacuumSql other dir database table).bind (fun vacuum =>
          (optimizeSql other dir database table predicate).map (fun optimize => ⟨vacuum, some optimize⟩)) := by
    intro predicate h
    rw [maintenanceOf_windowed h, hvacuumSql, hoptimizeSql]
    cases render (readSql dir vacuumTable) [("database", database.toList), ("table", table.toList)] with
    | error e => rfl
    | ok vacuum => exact toOption_map _ _
  simp only [maintainedTables, List.mem_cons, List.not_mem_nil, or_false] at htable
  rcases htable with rfl | rfl | rfl | rfl | rfl | rfl
  · exact hwindowed _ (List.mem_append_left _ (List.mem_cons_self ..))
  · exact hwindowed _ (List.mem_append_left _ (List.mem_cons_of_mem _ (List.mem_cons_self ..)))
  · exact hwindowed _ (List.mem_append_left _ (List.mem_cons_of_mem _ (List.mem_cons_of_mem _ (List.mem_cons_self ..))))
  · exact hwindowed _ (List.mem_append_right _ (List.mem_cons_self ..))
  · rw [maintenanceOf_silverMacro, toOption_map, ← hvacuumSql]
    show Option.map _ (vacuumSql other dir database "silver_macro") = (vacuumSql other dir database "silver_macro").bind _
    cases vacuumSql other dir database "silver_macro" <;> rfl
  · exact hwindowed _ (List.mem_append_left _
      (List.mem_cons_of_mem _ (List.mem_cons_of_mem _ (List.mem_cons_of_mem _ (List.mem_cons_self ..)))))

theorem toOption_mapM {ε α β : Type} {f : α → Except ε β} {g : α → Option β} :
    ∀ {xs : List α}, (∀ x ∈ xs, (f x).toOption = g x) → (xs.mapM f).toOption = xs.mapM g
  | [], _      => rfl
  | x :: xs, h => by
    obtain ⟨hx, hxs⟩ := List.forall_mem_cons.1 h
    rw [List.mapM_cons, List.mapM_cons, toOption_bind, hx, ← toOption_mapM hxs]
    refine congrArg (Option.bind _) (funext (fun y => ?_))
    rw [toOption_bind]
    rfl

/-- **The two renderers give the same statements**, or neither gives any. -/
theorem renderParity (other : List Char → Option (List Char)) (dir : SqlDir) (database : String) (lookbackDays : Int)
    (hshared : ∀ path ∈ sharedFiles, Shared (dir path)) (hfragment : '\r' ∉ dir "fragments/valid_trade.sql") :
    (mergeStatements dir database lookbackDays).toOption = terraformMerges other dir database lookbackDays ∧
    (enrichmentStatements dir database lookbackDays).toOption = terraformEnrichmentMerges other dir database lookbackDays ∧
    (∀ table ∈ maintainedTables, (maintenanceOf dir database lookbackDays table).toOption =
      terraformMaintenance other dir database lookbackDays table) ∧
    (maintenanceStatements dir database lookbackDays).toOption =
      maintainedTables.mapM (fun table => (terraformMaintenance other dir database lookbackDays table).map (table, ·)) := by
  have htemplatefile : ∀ path ∈ sharedFiles, ∀ vars,
      templatefile other dir path vars = (render (readSql dir path) vars).toOption :=
    fun path hpath vars => templatefile_eq (hshared path hpath) vars
  have hmaintenance : ∀ table ∈ maintainedTables, (maintenanceOf dir database lookbackDays table).toOption =
      terraformMaintenance other dir database lookbackDays table :=
    fun table htable => maintenanceOf_eq (hshared _ (by decide)) (hshared _ (by decide)) htable
  refine ⟨?_, ?_, hmaintenance, ?_⟩
  · have hvalid : validExpr dir = dir "fragments/valid_trade.sql" := readText_of_newlines hfragment
    have hdirty := htemplatefile "fragments/dirty_from_bronze.sql" (by decide)
    have hsilver := htemplatefile "merge_silver_trades.sql" (by decide)
    have hquarantine := htemplatefile "merge_silver_quarantine.sql" (by decide)
    have hgold := htemplatefile "merge_gold_bars_1m.sql" (by decide)
    simp only [terraformMerges, nativeMedallion, hdirty, hsilver, hquarantine, hgold]
    rw [mergeStatements, hvalid, toOption_bind]
    refine congrArg (Option.bind _) (funext (fun silver => ?_))
    rw [toOption_bind]
    refine congrArg (Option.bind _) (funext (fun quarantine => ?_))
    rw [toOption_bind, dirtyFromBronze]
    cases render (readSql dir "fragments/dirty_from_bronze.sql")
        [("database", database.toList), ("lookback_days", digits lookbackDays)] with
    | error e => rfl
    | ok dirtyCte => exact toOption_bind _ _
  · have hperp := htemplatefile "merge_silver_perp_context.sql" (by decide)
    have hmacro := htemplatefile "merge_silver_macro.sql" (by decide)
    simp only [terraformEnrichmentMerges, nativeEnrichment, hperp, hmacro]
    rw [enrichmentStatements, toOption_bind]
    refine congrArg (Option.bind _) (funext (fun perp => ?_))
    rw [toOption_bind]
    rfl
  · refine toOption_mapM (fun table htable => ?_)
    rw [toOption_map, hmaintenance table htable]

end Statements

/-! ## Files with every placeholder -/

/-- A placeholder that both know, or no dollar. -/
def isShared : Piece → Bool
  | .literal _ _ => true
  | .dollar      => false
  | .slot name _ => decide (String.ofList name ∈ knownPlaceholders)

theorem shared_of_pieces {text : List Char} (h : ∃ t ∈ templateOf text, t.text = text ∧ t.all isShared = true)
    (hpercent : '%' ∉ text) (hreturn : '\r' ∉ text) : Shared text where
  template := by
    obtain ⟨t, -, htext, hall⟩ := h
    rw [List.all_eq_true] at hall
    refine ⟨t, htext, fun hdollar => ?_, fun name hname hslot => of_decide_eq_true (hall _ hslot)⟩
    cases hall _ hdollar
  directive h := hpercent (h.subset (List.mem_cons_self ..))
  lineEnds := hreturn

/-- A file for each use of the placeholders. -/
def slotsDir : SqlDir := fun path =>
  if path = "fragments/valid_trade.sql" then "p > 0".toList
  else if path = "fragments/dirty_from_bronze.sql" then "FROM ${database}.b '${lookback_days}'".toList
  else if path = mergeGold then "WITH d AS (${dirty_cte}) ${database}.g".toList
  else if path = optimizeTable then "${database}.${table} WHERE ${partition_predicate}".toList
  else if path = vacuumTable then "${database}.${table}".toList
  else if path = mergeMacro then "${database}.m".toList
  else if path = mergePerpContext then "${database}.p '${lookback_days}'".toList
  else "${database}.s '${lookback_days}' (${valid_expr})".toList

theorem shared_slotsDir : ∀ path ∈ sharedFiles, Shared (slotsDir path) := by
  intro path hpath
  have hcheck : ∀ path ∈ sharedFiles, (∃ t ∈ templateOf (slotsDir path), t.text = slotsDir path ∧ t.all isShared = true) ∧
      '%' ∉ slotsDir path ∧ '\r' ∉ slotsDir path := by decide +kernel
  obtain ⟨hpieces, hpercent, hreturn⟩ := hcheck path hpath
  exact shared_of_pieces hpieces hpercent hreturn

theorem renderParity_slotsDir :
    (terraformMerges (fun _ => none) slotsDir "fdai" 7).map (fun merges => merges.get? mergeGold) = some (some
      "WITH d AS (FROM fdai.b '7') fdai.g".toList) ∧
    (mergeStatements slotsDir "fdai" 7).toOption = terraformMerges (fun _ => none) slotsDir "fdai" 7 ∧
    (enrichmentStatements slotsDir "fdai" 7).toOption = terraformEnrichmentMerges (fun _ => none) slotsDir "fdai" 7 ∧
    (∀ table ∈ maintainedTables, (maintenanceOf slotsDir "fdai" 7 table).toOption =
      terraformMaintenance (fun _ => none) slotsDir "fdai" 7 table) ∧
    (maintenanceStatements slotsDir "fdai" 7).toOption =
      maintainedTables.mapM (fun table => (terraformMaintenance (fun _ => none) slotsDir "fdai" 7 table).map (table, ·)) :=
  ⟨by decide +kernel, renderParity (fun _ => none) slotsDir "fdai" 7 shared_slotsDir (by decide)⟩

end Awsnative.Render
