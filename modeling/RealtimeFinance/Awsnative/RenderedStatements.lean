import RealtimeFinance.Awsnative.Render
import RealtimeFinance.Awsnative.SplitStatements
import RealtimeFinance.Sql.Merge
import RealtimeFinance.Sql.Tally
/-!
# RenderedStatements — rendering keeps the statements of a file

A state of the state machine sends one statement, so a file that held one must hold one when it is rendered.  What is put
in for a placeholder is read by `split_statements` like the text around it: it may open a comment or a literal, or end the
statement.  Where each value fits where it stands (`FitsFrom`), the rendered file has as many statements as the file with a
letter for each placeholder, and a rendered fragment that fits plain text can be put in in turn.

The days stand in a literal, the database is an identifier, and the fragments fit plain text: every merge keeps its
statements (`merges_keep_statements`).
-/
namespace Awsnative.Render

open Python Sql

/-- A letter for each placeholder. -/
def Match.mark : Match → List Char
  | .text c   => [c]
  | .escaped  => ['$']
  | .named _  => ['x']
  | .braced _ => ['x']
  | .invalid  => []

def marked (text : List Char) : List Char := (finditer 0 text).flatMap Match.mark

def mark (t : Template) : List Char := (t.map Piece.toMatch).flatMap Match.mark

def filledPiece (values : List Char → List Char) : Piece → List Char
  | .literal c _ => [c]
  | .dollar      => ['$']
  | .slot name _ => values name

/-- A value for each slot. -/
def filled (values : List Char → List Char) (t : Template) : List Char := t.flatMap (filledPiece values)

abbrev plain : Splitting := ⟨false, false⟩

/-- A text that can stand in plain text, whatever is behind it. -/
def FitsPlain (text : List Char) : Prop :=
  ∀ shown ahead, splitter.tally isSpace ⟨plain, shown, 0⟩ text ahead = ⟨plain, true, 0⟩

/-- A text that can stand where the splitter is in a state. -/
def Fits (s : Splitting) (text : List Char) : Prop :=
  if s.inLineComment then '\n' ∉ text else if s.inSingleQuote then '\'' ∉ text else FitsPlain text

/-- No placeholder is next. -/
def Template.opensWithText : Template → Bool
  | .slot _ _ :: _ => false
  | _              => true

/-- Every value fits where it stands, and none stands right behind a dash, which would look at it. -/
def FitsFrom (values : List Char → List Char) : Splitting → Template → Prop
  | _, []                => True
  | s, .literal c _ :: t =>
    (c = '-' → Template.opensWithText t = true) ∧ FitsFrom values (s.next c (mark t).head?) t
  | s, .dollar :: t      => FitsFrom values (s.next '$' (mark t).head?) t
  | s, .slot name _ :: t => Fits s (values name) ∧ FitsFrom values s t

section Reading

variable {s : Splitting} {text : List Char} {values : List Char → List Char} {t : Template}

theorem marked_text (t : Template) : marked t.text = mark t := by
  have h := finditer_text t []
  rw [List.append_nil] at h
  rw [marked, h, show finditer 0 [] = [] from rfl, List.append_nil, mark]

theorem fill_eq_filled {params : Params} : ∀ {t : Template} {text : List Char}, t.fill params.item = .ok text →
    text = filled (fun name => (params name).getD []) t
  | [], text, h     => (Except.ok.inj h).symm
  | p :: t, text, h => by
    obtain ⟨head, rest, hhead, hrest, rfl⟩ := fill_cons_ok h
    have hp : filledPiece (fun name => (params name).getD []) p = head := by
      cases p with
      | literal c hc => exact Except.ok.inj hhead
      | dollar => exact Except.ok.inj hhead
      | slot name hname =>
        rw [filledPiece, item_eq_ok.1 hhead]
        rfl
    rw [fill_eq_filled hrest, ← hp]
    rfl

theorem tally_comment (hs : s.inLineComment = true) (h : '\n' ∉ text) (shown : Bool) (n : Nat) (ahead : Option Char) :
    splitter.tally isSpace ⟨s, shown, n⟩ text ahead = ⟨s, shown, n⟩ := by
  induction text with
  | nil => rfl
  | cons c text ih =>
    have hc : c ≠ '\n' := fun heq => h (heq ▸ List.mem_cons_self ..)
    have hcount : ∀ a, splitter.count isSpace ⟨s, shown, n⟩ c a = ⟨s, shown, n⟩ := by
      intro a
      obtain ⟨quote, comment⟩ := s
      simp only at hs
      simp [Scanner.count, splitter, Splitting.act, Splitting.next, Tally.act, hs, hc]
    rw [Scanner.tally, hcount, ih (fun hmem => h (List.mem_cons_of_mem c hmem))]

theorem tally_quote (h : '\'' ∉ text) (n : Nat) (ahead : Option Char) :
    splitter.tally isSpace ⟨⟨true, false⟩, true, n⟩ text ahead = ⟨⟨true, false⟩, true, n⟩ := by
  induction text with
  | nil => rfl
  | cons c text ih =>
    have hc : c ≠ '\'' := fun heq => h (heq ▸ List.mem_cons_self ..)
    have hcount : ∀ a, splitter.count isSpace ⟨⟨true, false⟩, true, n⟩ c a = ⟨⟨true, false⟩, true, n⟩ := by
      intro a
      simp [Scanner.count, splitter, Splitting.act, Splitting.next, Tally.act, hc]
    rw [Scanner.tally, hcount, ih (fun hmem => h (List.mem_cons_of_mem c hmem))]

theorem FitsPlain.tally (h : FitsPlain text) (shown : Bool) (n : Nat) (ahead : Option Char) :
    splitter.tally isSpace ⟨plain, shown, n⟩ text ahead = ⟨plain, true, n⟩ := by
  have hadd := tally_finished splitter isSpace text ahead n ⟨plain, shown, 0⟩
  rw [h] at hadd
  exact hadd

theorem fitsPlain_letter : FitsPlain ['x'] := by
  intro shown ahead
  cases shown <;> rfl

/-- A value is read as a letter where it fits. -/
theorem tally_value (h : Fits s text) {shown : Bool} (hquote : s.inSingleQuote = true → shown = true) (n : Nat)
    (ahead ahead' : Option Char) :
    splitter.tally isSpace ⟨s, shown, n⟩ text ahead = splitter.tally isSpace ⟨s, shown, n⟩ ['x'] ahead' := by
  unfold Fits at h
  obtain ⟨quote, comment⟩ := s
  cases comment with
  | true => rw [tally_comment rfl h, tally_comment rfl (by decide)]
  | false =>
    cases quote with
    | true =>
      rw [hquote rfl, tally_quote h, tally_quote (by decide)]
    | false =>
      have hplain : FitsPlain text := h
      rw [hplain.tally, fitsPlain_letter.tally]

/-- Only a dash in plain text looks ahead, and only for a dash. -/
theorem count_ahead {c : Char} {tally : Tally Splitting} {ahead ahead' : Option Char}
    (h : tally.state = plain → c = '-' → (ahead = some '-' ↔ ahead' = some '-')) :
    splitter.count isSpace tally c ahead = splitter.count isSpace tally c ahead' := by
  obtain ⟨⟨quote, comment⟩, shown, n⟩ := tally
  cases comment with
  | true => simp [Scanner.count, splitter, Splitting.act, Splitting.next]
  | false =>
    cases quote with
    | true => simp [Scanner.count, splitter, Splitting.act, Splitting.next]
    | false =>
      by_cases hc : c = '-'
      · have hiff := h rfl hc
        simp [Scanner.count, splitter, Splitting.act, Splitting.next, hiff]
      · simp [Scanner.count, splitter, Splitting.act, Splitting.next, hc]

/-- What follows a template is not seen before it. -/
theorem FitsFrom.or {c : Char} (h : FitsFrom values (s.next c (mark t).head?) t) (ahead : Option Char) :
    FitsFrom values (s.next c ((mark t).head?.or ahead)) t := by
  cases t with
  | nil => trivial
  | cons p t => cases p <;> exact h

/-- A character is read alike before a value and before a letter. -/
theorem count_filled {c : Char} (hdash : c = '-' → Template.opensWithText t = true) (tally : Tally Splitting)
    (ahead : Option Char) :
    splitter.count isSpace tally c ((filled values t).head?.or ahead) =
      splitter.count isSpace tally c ((mark t).head?.or ahead) := by
  refine count_ahead (fun _ hc => ?_)
  cases t with
  | nil => exact Iff.rfl
  | cons p t =>
    cases p with
    | literal d hd => exact Iff.rfl
    | dollar => exact Iff.rfl
    | slot name hname => cases hdash hc

/-- In a literal its quote has been shown. -/
theorem shown_count {tally : Tally Splitting} (h : tally.state.inSingleQuote = true → tally.shown = true) (c : Char)
    (ahead : Option Char) (hnext : (splitter.count isSpace tally c ahead).state.inSingleQuote = true) :
    (splitter.count isSpace tally c ahead).shown = true := by
  obtain ⟨⟨quote, comment⟩, shown, n⟩ := tally
  revert hnext
  cases comment with
  | true =>
    by_cases hc : c = '\n'
    · simp_all [Scanner.count, splitter, Splitting.act, Splitting.next, Tally.act]
    · simp_all [Scanner.count, splitter, Splitting.act, Splitting.next, Tally.act]
  | false =>
    cases quote with
    | true => simp_all [Scanner.count, splitter, Splitting.act, Splitting.next, Tally.act]
    | false =>
      by_cases hc : c = '\''
      · have hspace : isSpace '\'' = false := by decide
        simp [Scanner.count, splitter, Splitting.act, Splitting.next, Tally.act, hc, hspace]
      · intro hnext
        rw [count_state] at hnext
        simp [splitter, Splitting.next, hc] at hnext

/-- **A template is read alike with values and with letters.** -/
theorem tally_filled : ∀ (t : Template) (tally : Tally Splitting) (ahead : Option Char),
    (tally.state.inSingleQuote = true → tally.shown = true) → FitsFrom values tally.state t →
    splitter.tally isSpace tally (filled values t) ahead = splitter.tally isSpace tally (mark t) ahead
  | [], _, _, _, _                                 => rfl
  | .literal c hc :: t, tally, ahead, hquote, h    => by
    obtain ⟨hdash, hnext⟩ := h
    show splitter.tally isSpace tally (c :: filled values t) ahead = splitter.tally isSpace tally (c :: mark t) ahead
    rw [Scanner.tally, Scanner.tally, count_filled hdash]
    refine tally_filled t _ ahead (shown_count hquote c _) ?_
    rw [count_state]
    exact hnext.or ahead
  | .dollar :: t, tally, ahead, hquote, h          => by
    have hnext : FitsFrom values (tally.state.next '$' (mark t).head?) t := h
    show splitter.tally isSpace tally ('$' :: filled values t) ahead = splitter.tally isSpace tally ('$' :: mark t) ahead
    rw [Scanner.tally, Scanner.tally, count_filled (fun heq => absurd heq (by decide))]
    refine tally_filled t _ ahead (shown_count hquote '$' _) ?_
    rw [count_state]
    exact hnext.or ahead
  | .slot name hname :: t, tally, ahead, hquote, h => by
    obtain ⟨s, shown, n⟩ := tally
    have hvalue := fun a => tally_value h.1 hquote n a ((mark t).head?.or ahead)
    show splitter.tally isSpace ⟨s, shown, n⟩ (values name ++ filled values t) ahead =
      splitter.tally isSpace ⟨s, shown, n⟩ (['x'] ++ mark t) ahead
    rw [tally_append, tally_append, hvalue]
    refine tally_filled t _ ahead (shown_count hquote 'x' _) ?_
    show FitsFrom values (splitter.count isSpace ⟨s, shown, n⟩ 'x' _).state t
    rw [count_state]
    obtain ⟨quote, comment⟩ := s
    cases comment <;> cases quote <;> exact h.2

/-- **Rendering keeps the statements.** -/
theorem splitStatements_filled (h : FitsFrom values plain t) :
    (splitStatements (filled values t)).length = (splitStatements (mark t)).length := by
  have hfilled := length_stripped splitter isSpace (filled values t) plain [] 0
  have hmark := length_stripped splitter isSpace (mark t) plain [] 0
  rw [tally_filled t _ none (fun h => by cases h) h] at hfilled
  rw [Nat.zero_add] at hfilled hmark
  rw [splitStatements_eq, splitStatements_eq, hfilled, hmark]

/-- A rendered text that would fit plain text with letters fits it. -/
theorem FitsPlain.filled (h : FitsFrom values plain t) (hmark : FitsPlain (mark t)) : FitsPlain (filled values t) := by
  intro shown ahead
  rw [tally_filled t _ ahead (fun h => by cases h) h, hmark]

end Reading

/-! ## The merges -/

/-- Where the placeholders of a merge stand: outside comments and not behind a dash; in a literal only the days, and they
nowhere else. -/
def PlacedFrom : Splitting → Template → Prop
  | _, []                => True
  | s, .literal c _ :: t =>
    (c = '-' → Template.opensWithText t = true) ∧ PlacedFrom (s.next c (mark t).head?) t
  | s, .dollar :: t      => PlacedFrom (s.next '$' (mark t).head?) t
  | s, .slot name _ :: t =>
    s.inLineComment = false ∧ (s.inSingleQuote = true ↔ name = "lookback_days".toList) ∧ PlacedFrom s t

instance decidablePlacedFrom : ∀ (s : Splitting) (t : Template), Decidable (PlacedFrom s t)
  | _, []                => isTrue trivial
  | s, .literal c _ :: t =>
    haveI := decidablePlacedFrom (s.next c (mark t).head?) t
    inferInstanceAs (Decidable ((c = '-' → Template.opensWithText t = true) ∧ PlacedFrom _ t))
  | s, .dollar :: t      => decidablePlacedFrom (s.next '$' (mark t).head?) t
  | s, .slot name _ :: t =>
    haveI := decidablePlacedFrom s t
    inferInstanceAs (Decidable (s.inLineComment = false ∧ (s.inSingleQuote = true ↔ name = "lookback_days".toList) ∧
      PlacedFrom s t))

/-- A file whose placeholders are placed. -/
def Placed (text : List Char) : Prop := ∃ t : Template, t.text = text ∧ PlacedFrom plain t

instance (text : List Char) : Decidable (Placed text) := decidable_of_iff _ exists_template_iff.symm

section Merges

variable {params : Params} {s : Splitting}

theorem fits_of_placed (hdays : ∀ v, params "lookback_days".toList = some v → '\'' ∉ v)
    (hplain : ∀ name v, name ≠ "lookback_days".toList → params name = some v → FitsPlain v) :
    ∀ {t : Template} {s : Splitting} {text : List Char}, PlacedFrom s t → t.fill params.item = .ok text →
      FitsFrom (fun name => (params name).getD []) s t
  | [], _, _, _, _             => trivial
  | p :: t, s, text, hp, hfill => by
    obtain ⟨head, rest, hhead, hrest, rfl⟩ := fill_cons_ok hfill
    cases p with
    | literal c hc => exact ⟨hp.1, @fits_of_placed hdays hplain t _ rest hp.2 hrest⟩
    | dollar => exact @fits_of_placed hdays hplain t _ rest hp hrest
    | slot name hname =>
      obtain ⟨hcomment, hquote, hp⟩ := hp
      have hvalue := item_eq_ok.1 hhead
      refine ⟨?_, fits_of_placed hdays hplain hp hrest⟩
      dsimp only
      rw [hvalue, Option.getD_some, Fits, hcomment, if_neg (by decide)]
      by_cases hname : name = "lookback_days".toList
      · rw [if_pos (hquote.2 hname)]
        exact hdays head (hname ▸ hvalue)
      · rw [if_neg (fun h => hname (hquote.1 h))]
        exact hplain name head hname hvalue

/-- An argument that fits wherever its placeholder may stand. -/
def Suitable (item : String × List Char) : Prop :=
  if item.1 = "lookback_days" then '\'' ∉ item.2 else FitsPlain item.2

theorem mem_of_arguments {params : Dict (List Char)} {name value : List Char} (h : arguments params name = some value) :
    (String.ofList name, value) ∈ params := by
  have hset : ∃ item ∈ params, item.1 = String.ofList name := by
    by_contra hnone
    rw [arguments, Dict.get?_eq_none (fun item hitem heq => hnone ⟨item, hitem, heq⟩)] at h
    cases h
  obtain ⟨v, hv, hmem⟩ := Dict.get?_of_mem hset
  rw [arguments, hv, Option.some.injEq] at h
  exact h ▸ hmem

theorem exists_filled {text rendered : List Char} {params : Dict (List Char)} (hplaced : Placed text)
    (hparams : ∀ item ∈ params, Suitable item) (h : render text params = .ok rendered) :
    ∃ t values, t.text = text ∧ rendered = filled values t ∧ FitsFrom values plain t := by
  obtain ⟨t, rfl, hplaced⟩ := hplaced
  rw [render, substitute_text] at h
  have hdays : ∀ v, arguments params "lookback_days".toList = some v → '\'' ∉ v := by
    intro v hv
    have hsuitable := hparams _ (mem_of_arguments hv)
    rwa [Suitable, String.ofList_toList, if_pos rfl] at hsuitable
  have hplain : ∀ name v, name ≠ "lookback_days".toList → arguments params name = some v → FitsPlain v := by
    intro name v hname hv
    have hsuitable := hparams _ (mem_of_arguments hv)
    rwa [Suitable, if_neg (fun heq => hname (by rw [← heq, String.toList_ofList]))] at hsuitable
  exact ⟨t, _, rfl, fill_eq_filled h, fits_of_placed hdays hplain hplaced h⟩

/-- One file. -/
theorem render_keeps {text rendered : List Char} {params : Dict (List Char)} (hplaced : Placed text)
    (hparams : ∀ item ∈ params, Suitable item) (h : render text params = .ok rendered) :
    (splitStatements rendered).length = (splitStatements (marked text)).length := by
  obtain ⟨t, values, rfl, rfl, hfits⟩ := exists_filled hplaced hparams h
  rw [marked_text]
  exact splitStatements_filled hfits

/-- A fragment that fits plain text with letters fits it. -/
theorem render_fitsPlain {text rendered : List Char} {params : Dict (List Char)} (hplaced : Placed text)
    (hparams : ∀ item ∈ params, Suitable item) (hmarked : FitsPlain (marked text)) (h : render text params = .ok rendered) :
    FitsPlain rendered := by
  obtain ⟨t, values, rfl, rfl, hfits⟩ := exists_filled hplaced hparams h
  rw [marked_text] at hmarked
  exact hmarked.filled hfits

theorem word_of_isIdPart {c : Char} (h : isIdPart c = true) :
    isSpace c = false ∧ c ≠ '-' ∧ c ≠ '\'' ∧ c ≠ ';' := by
  have hother : ∀ d, isIdPart d = false → c ≠ d := by
    rintro d hd rfl
    rw [h] at hd
    cases hd
  refine ⟨?_, hother _ (by decide), hother _ (by decide), hother _ (by decide)⟩
  have hrange : 48 ≤ c.toNat ∧ c.toNat ≤ 122 := by
    delta isIdPart isIdStart Char.isAlpha Char.isUpper Char.isLower Char.isDigit at h
    simp only [Bool.or_eq_true, beq_iff_eq, Bool.and_eq_true, decide_eq_true_eq] at h
    rcases h with (rfl | ⟨hlo, hhi⟩ | ⟨hlo, hhi⟩) | ⟨hlo, hhi⟩
    · decide
    · exact ⟨Nat.le_trans (by decide) hlo, Nat.le_trans hhi (by decide)⟩
    · exact ⟨Nat.le_trans (by decide) hlo, hhi⟩
    · exact ⟨hlo, Nat.le_trans hhi (by decide)⟩
  obtain ⟨hlo, hhi⟩ := hrange
  unfold isSpace
  simp
  omega

theorem tally_tame {text : List Char} (h : ∀ c ∈ text, c ≠ '-' ∧ c ≠ '\'' ∧ c ≠ ';') (shown : Bool) (n : Nat)
    (ahead : Option Char) :
    splitter.tally isSpace ⟨plain, shown, n⟩ text ahead = ⟨plain, shown || text.any (!isSpace ·), n⟩ := by
  induction text generalizing shown with
  | nil => rw [Scanner.tally, List.any_nil, Bool.or_false]
  | cons c text ih =>
    obtain ⟨hdash, hquote, hcut⟩ := h c (List.mem_cons_self ..)
    have hcount : ∀ a, splitter.count isSpace ⟨plain, shown, n⟩ c a = ⟨plain, shown || !isSpace c, n⟩ := by
      intro a
      simp [Scanner.count, splitter, Splitting.act, Splitting.next, Tally.act, hdash, hquote, hcut]
    rw [Scanner.tally, hcount, ih (fun e he => h e (List.mem_cons_of_mem c he)), List.any_cons, Bool.or_assoc]

/-- A text without dashes, quotes and semicolons fits plain text where it is not blank. -/
theorem fitsPlain_tame {text : List Char} (hshows : text.any (!isSpace ·) = true)
    (h : ∀ c ∈ text, c ≠ '-' ∧ c ≠ '\'' ∧ c ≠ ';') : FitsPlain text := by
  intro shown ahead
  rw [tally_tame h, hshows, Bool.or_true]

/-- A literal closes behind a text that fits plain text. -/
theorem fitsPlain_quoted {before text : List Char} (h : FitsPlain before) (hquote : '\'' ∉ text) :
    FitsPlain (before ++ '\'' :: (text ++ ['\''])) := by
  intro shown ahead
  have hopen : ∀ a, splitter.count isSpace ⟨plain, true, 0⟩ '\'' a = ⟨⟨true, false⟩, true, 0⟩ := fun _ => rfl
  have hclose : ∀ a, splitter.count isSpace ⟨⟨true, false⟩, true, 0⟩ '\'' a = ⟨plain, true, 0⟩ := fun _ => rfl
  rw [tally_append, h, Scanner.tally, hopen, tally_append, tally_quote hquote, Scanner.tally, hclose, Scanner.tally]

/-- An identifier fits plain text. -/
theorem fitsPlain_identifier {text : List Char} (hne : text ≠ []) (h : ∀ c ∈ text, isIdPart c = true) :
    FitsPlain text := by
  refine fitsPlain_tame ?_ (fun c hc => ?_)
  · obtain ⟨c, cs, rfl⟩ := List.exists_cons_of_ne_nil hne
    rw [List.any_cons, (word_of_isIdPart (h c (List.mem_cons_self ..))).1]
    rfl
  · exact (word_of_isIdPart (h c hc)).2

theorem not_quote_digits (n : Int) : '\'' ∉ digits n := by
  intro h
  rcases mem_toString h with heq | hdigit
  · exact absurd heq (by decide)
  · exact absurd hdigit (by decide)

/-- The files that the merges are rendered from. -/
def mergeFiles : List String :=
  ["fragments/dirty_from_bronze.sql", mergeSilver, mergeQuarantine, mergeGold, mergeManifestOutcomes, mergeSilverArchive,
   mergeGoldArchive, mergePerpContext, mergeMacro]

variable {dir : SqlDir} {database : String} {lookbackDays : Int}

/-- **Every merge keeps the statements of its file**: of the micro-batch, the backfill and the enrichment. -/
theorem merges_keep_statements (hdatabase : database.toList ≠ []) (hidentifier : ∀ c ∈ database.toList, isIdPart c = true)
    (hplaced : ∀ path ∈ mergeFiles, Placed (readSql dir path))
    (hvalid : FitsPlain (readSql dir "fragments/valid_trade.sql"))
    (hdirty : FitsPlain (marked (readSql dir "fragments/dirty_from_bronze.sql"))) :
    ∀ statements, mergeStatements dir database lookbackDays = .ok statements ∨ backfillStatements dir database = .ok statements ∨
        enrichmentStatements dir database lookbackDays = .ok statements →
      ∀ p ∈ statements, (splitStatements p.2).length = (splitStatements (marked (readSql dir p.1))).length := by
  have hplain : FitsPlain database.toList := fitsPlain_identifier hdatabase hidentifier
  have hdays : Suitable ("lookback_days", digits lookbackDays) := not_quote_digits lookbackDays
  have hname : Suitable ("database", database.toList) := hplain
  have hwindow : ∀ item ∈ [("database", database.toList), ("lookback_days", digits lookbackDays)], Suitable item :=
    List.forall_mem_cons.2 ⟨hname, List.forall_mem_singleton.2 hdays⟩
  have hbound : ∀ item ∈ [("database", database.toList), ("lookback_days", digits lookbackDays),
      ("valid_expr", validExpr dir)], Suitable item :=
    List.forall_mem_cons.2 ⟨hname, List.forall_mem_cons.2 ⟨hdays, List.forall_mem_singleton.2 hvalid⟩⟩
  intro statements hstatements p hp
  rcases hstatements with h | h | h
  · obtain ⟨silver, hsilver, h⟩ := bind_ok h
    obtain ⟨quarantine, hquarantine, h⟩ := bind_ok h
    obtain ⟨dirtyCte, hcte, h⟩ := bind_ok h
    obtain ⟨gold, hgold, h⟩ := bind_ok h
    have hfragment : Suitable ("dirty_cte", dirtyCte) := render_fitsPlain (hplaced _ (by decide)) hwindow hdirty hcte
    cases h
    simp only [List.mem_cons, List.not_mem_nil, or_false] at hp
    rcases hp with rfl | rfl | rfl
    · exact render_keeps (hplaced mergeSilver (by decide)) hbound hsilver
    · exact render_keeps (hplaced mergeQuarantine (by decide)) hbound hquarantine
    · exact render_keeps (hplaced mergeGold (by decide))
        (List.forall_mem_cons.2 ⟨hname, List.forall_mem_singleton.2 hfragment⟩) hgold
  · obtain ⟨name, hmem, h⟩ := (mapM_ok h).2 p hp
    obtain ⟨statement, hstatement, h⟩ := bind_ok h
    cases h
    refine render_keeps (hplaced name ?_) (List.forall_mem_singleton.2 hname) hstatement
    simp only [mergeFiles, List.mem_cons, List.not_mem_nil, or_false] at hmem ⊢
    rcases hmem with rfl | rfl | rfl <;> simp
  · obtain ⟨perp, hperp, h⟩ := bind_ok h
    obtain ⟨macroMerge, hmacro, h⟩ := bind_ok h
    cases h
    simp only [List.mem_cons, List.not_mem_nil, or_false] at hp
    rcases hp with rfl | rfl
    · exact render_keeps (hplaced mergePerpContext (by decide)) hwindow hperp
    · exact render_keeps (hplaced mergeMacro (by decide)) (List.forall_mem_singleton.2 hname) hmacro

/-- The merges of the micro-batch are one statement each, the fragments spliced in. -/
theorem merges_keep_statements_slotsDir : ∃ statements, mergeStatements slotsDir "fdai" 7 = .ok statements ∧
    ∀ p ∈ statements, (splitStatements p.2).length = 1 := by
  have hplaced : ∀ path ∈ mergeFiles, Placed (readSql slotsDir path) := by decide +kernel
  have hvalid : FitsPlain (readSql slotsDir "fragments/valid_trade.sql") := by
    have hread : readSql slotsDir "fragments/valid_trade.sql" = ['p', ' ', '>', ' ', '0'] := by decide +kernel
    rw [hread]
    intro shown ahead
    cases shown <;> rfl
  have hdirty : FitsPlain (marked (readSql slotsDir "fragments/dirty_from_bronze.sql")) := by
    have hread : marked (readSql slotsDir "fragments/dirty_from_bronze.sql") =
        ['F', 'R', 'O', 'M', ' ', 'x', '.', 'b', ' '] ++ '\'' :: (['x'] ++ ['\'']) := by decide +kernel
    rw [hread]
    exact fitsPlain_quoted (fitsPlain_tame rfl (by simp)) (by simp)
  have hnames : ((mergeStatements slotsDir "fdai" 7).toOption.map (fun statements => statements.map Prod.fst)) =
      some [mergeSilver, mergeQuarantine, mergeGold] := by decide +kernel
  have hone : ∀ name ∈ [mergeSilver, mergeQuarantine, mergeGold],
      (splitStatements (marked (readSql slotsDir name))).length = 1 := by decide +kernel
  cases h : mergeStatements slotsDir "fdai" 7 with
  | error e =>
    rw [h] at hnames
    cases hnames
  | ok statements =>
    rw [h] at hnames
    refine ⟨statements, rfl, fun p hp => ?_⟩
    rw [merges_keep_statements (by decide) (List.all_eq_true.1 rfl) hplaced hvalid hdirty statements (Or.inl h) p hp]
    refine hone p.1 ?_
    rw [← Option.some.inj hnames]
    exact List.mem_map_of_mem hp

end Merges

end Awsnative.Render
