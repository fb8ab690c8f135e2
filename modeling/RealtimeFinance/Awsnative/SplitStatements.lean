import Mathlib.Algebra.Group.Nat.Even
import RealtimeFinance.Sql.Scanner
/-!
# SplitStatements — `athena.split_statements`, against the modes of SQL text

The splitter knows two modes beside the plain one: a single quote and a line comment.  SQL has more, and in each of those
the splitter goes on as if in plain text or in a quote: it cuts at a semicolon in a quoted identifier or a block comment,
takes a dash pair there for a comment, and takes an apostrophe there for the start of a literal that then runs on over the
semicolons of the plain text.

It splits a text as SQL does exactly when each semicolon and dash pair outside line comments has an even number of
apostrophes before it where it stands in plain text, and an odd number elsewhere (`splitStatements_eq_iff`).
-/
namespace Awsnative

open Python Sql

/-- The characters that are left; the statements before `current` are out. -/
def splitLoop (inSingleQuote inLineComment : Bool) (current : List Char) : List Char → List (List Char)
  | []           => [current]
  | char :: rest =>
    if inLineComment then
      if char = '\n' then splitLoop inSingleQuote false (current ++ [char]) rest
      else splitLoop inSingleQuote inLineComment current rest
    else if inSingleQuote then
      if char = '\'' then splitLoop false inLineComment (current ++ [char]) rest
      else splitLoop inSingleQuote inLineComment (current ++ [char]) rest
    else if char = '\'' then splitLoop true inLineComment (current ++ [char]) rest
    else if char = '-' ∧ rest.head? = some '-' then splitLoop inSingleQuote true current rest
    else if char = ';' then current :: splitLoop inSingleQuote inLineComment [] rest
    else splitLoop inSingleQuote inLineComment (current ++ [char]) rest

/-- `split_statements`. -/
def splitStatements (text : List Char) : List (List Char) := stripped isSpace (splitLoop false false [] text)

/-- The modes of SQL text; a block comment is opened and closed by two characters. -/
inductive Mode | plain | literal | doubleQuoted | backquoted | lineComment | blockOpening | blockComment | blockClosing
  deriving DecidableEq

/-- A doubled quote in a literal or an identifier closes it and opens it again. -/
def Mode.next (mode : Mode) (c : Char) (ahead : Option Char) : Mode :=
  match mode with
  | .plain        =>
    if c = '\'' then .literal
    else if c = '"' then .doubleQuoted
    else if c = '`' then .backquoted
    else if c = '-' ∧ ahead = some '-' then .lineComment
    else if c = '/' ∧ ahead = some '*' then .blockOpening
    else .plain
  | .literal      => if c = '\'' then .plain else .literal
  | .doubleQuoted => if c = '"' then .plain else .doubleQuoted
  | .backquoted   => if c = '`' then .plain else .backquoted
  | .lineComment  => if c = '\n' then .plain else .lineComment
  | .blockOpening => .blockComment
  | .blockComment => if c = '*' ∧ ahead = some '/' then .blockClosing else .blockComment
  | .blockClosing => .plain

/-- A line comment is dropped, without the line break that ends it, and a semicolon in plain text cuts. -/
def Mode.act (mode : Mode) (c : Char) (ahead : Option Char) : Act :=
  match mode with
  | .plain       => if c = ';' then .cut else if c = '-' ∧ ahead = some '-' then .drop else .keep
  | .lineComment => if c = '\n' then .keep else .drop
  | _            => .keep

def sql : Scanner Mode := ⟨Mode.act, Mode.next⟩

/-- The statements of a text, as SQL reads it. -/
def statements (text : List Char) : List (List Char) := stripped isSpace (segments (sql.acts .plain text))

/-- The splitter as a scanner: whether it is in a single quote, and whether in a line comment. -/
structure Splitting where
  inSingleQuote : Bool
  inLineComment : Bool

def Splitting.act (s : Splitting) (c : Char) (ahead : Option Char) : Act :=
  if s.inLineComment then if c = '\n' then .keep else .drop
  else if s.inSingleQuote then .keep
  else if c = '-' ∧ ahead = some '-' then .drop
  else if c = ';' then .cut
  else .keep

def Splitting.next (s : Splitting) (c : Char) (ahead : Option Char) : Splitting :=
  if s.inLineComment then ⟨s.inSingleQuote, c ≠ '\n'⟩
  else if s.inSingleQuote then ⟨c ≠ '\'', false⟩
  else if c = '\'' then ⟨true, false⟩
  else ⟨false, c = '-' ∧ ahead = some '-'⟩

def splitter : Scanner Splitting := ⟨Splitting.act, Splitting.next⟩

/-- **The loop is the scanner.** -/
theorem splitLoop_eq (inSingleQuote inLineComment : Bool) (current text : List Char) :
    splitLoop inSingleQuote inLineComment current text =
      segmentsFrom current (splitter.acts ⟨inSingleQuote, inLineComment⟩ text) := by
  induction text generalizing inSingleQuote inLineComment current with
  | nil => rw [splitLoop, Scanner.acts, segmentsFrom_nil]
  | cons char rest ih =>
    rw [splitLoop, Scanner.acts, segmentsFrom_cons]
    show _ = if Splitting.act ⟨inSingleQuote, inLineComment⟩ char rest.head? = .cut then
        current :: segmentsFrom [] (splitter.acts (Splitting.next ⟨inSingleQuote, inLineComment⟩ char rest.head?) rest)
      else segmentsFrom ((Splitting.act ⟨inSingleQuote, inLineComment⟩ char rest.head?).extend current char)
        (splitter.acts (Splitting.next ⟨inSingleQuote, inLineComment⟩ char rest.head?) rest)
    simp only [ih]
    cases inLineComment with
    | true =>
      by_cases hbreak : char = '\n'
      · simp [Splitting.act, Splitting.next, hbreak, Act.extend]
      · simp [Splitting.act, Splitting.next, hbreak, Act.extend]
    | false =>
      cases inSingleQuote with
      | true =>
        by_cases hquote : char = '\''
        · simp [Splitting.act, Splitting.next, hquote, Act.extend]
        · simp [Splitting.act, Splitting.next, hquote, Act.extend]
      | false =>
        by_cases hquote : char = '\''
        · simp [Splitting.act, Splitting.next, hquote, Act.extend]
        · by_cases hdash : char = '-' ∧ rest.head? = some '-'
          · simp [Splitting.act, Splitting.next, hdash, Act.extend]
          · by_cases hcut : char = ';'
            · simp [Splitting.act, Splitting.next, hcut]
            · simp [Splitting.act, Splitting.next, hquote, hdash, hcut, Act.extend]

theorem splitStatements_eq (text : List Char) :
    splitStatements text = stripped isSpace (segmentsFrom [] (splitter.acts ⟨false, false⟩ text)) := by
  rw [splitStatements, splitLoop_eq]

/-! ## One character -/

/-- A semicolon, or the first of two dashes. -/
def IsMark (c : Char) (ahead : Option Char) : Prop := c = ';' ∨ c = '-' ∧ ahead = some '-'

instance (c : Char) (ahead : Option Char) : Decidable (IsMark c ahead) := inferInstanceAs (Decidable (_ ∨ _))

theorem IsMark.isSpace_eq {c : Char} {ahead : Option Char} (h : IsMark c ahead) : isSpace c = false := by
  rcases h with rfl | ⟨rfl, -⟩
  · decide
  · decide

/-- What a mark does in plain text. -/
def markAct (c : Char) : Act := if c = ';' then .cut else .drop

theorem markAct_ne_keep (c : Char) : markAct c ≠ .keep := by
  unfold markAct
  split
  · decide
  · decide

theorem Splitting.act_comment {s : Splitting} (h : s.inLineComment = true) (c : Char) (ahead : Option Char) :
    s.act c ahead = if c = '\n' then .keep else .drop := by
  rw [Splitting.act, if_pos h]

theorem Splitting.act_eq {s : Splitting} (h : s.inLineComment = false) (c : Char) (ahead : Option Char) :
    s.act c ahead = if s.inSingleQuote = false ∧ IsMark c ahead then markAct c else .keep := by
  unfold Splitting.act markAct IsMark
  rw [h]
  cases s.inSingleQuote with
  | true => simp
  | false =>
    by_cases hcut : c = ';'
    · simp [hcut]
    · simp [hcut]

theorem Splitting.next_eq {s : Splitting} (h : s.inLineComment = false) (c : Char) (ahead : Option Char) :
    s.next c ahead = ⟨if c = '\'' then !s.inSingleQuote else s.inSingleQuote,
      s.inSingleQuote = false ∧ c = '-' ∧ ahead = some '-'⟩ := by
  unfold Splitting.next
  rw [h]
  cases s.inSingleQuote with
  | true =>
    by_cases hquote : c = '\''
    · simp [hquote]
    · simp [hquote]
  | false =>
    by_cases hquote : c = '\''
    · simp [hquote]
    · simp [hquote]

theorem Mode.act_eq {mode : Mode} (h : mode ≠ .lineComment) (c : Char) (ahead : Option Char) :
    mode.act c ahead = if mode = .plain ∧ IsMark c ahead then markAct c else .keep := by
  cases mode with
  | plain =>
    unfold Mode.act markAct IsMark
    by_cases hcut : c = ';'
    · simp [hcut]
    · simp [hcut]
  | lineComment => exact absurd rfl h
  | literal => rfl
  | doubleQuoted => rfl
  | backquoted => rfl
  | blockOpening => rfl
  | blockComment => rfl
  | blockClosing => rfl

/-- A line comment starts in plain text only. -/
theorem Mode.next_eq_lineComment_iff {mode : Mode} (h : mode ≠ .lineComment) (c : Char) (ahead : Option Char) :
    mode.next c ahead = .lineComment ↔ mode = .plain ∧ c = '-' ∧ ahead = some '-' := by
  unfold Mode.next
  cases mode with
  | plain =>
    by_cases hdash : c = '-' ∧ ahead = some '-'
    · simp [hdash]
    · simp only [hdash]
      grind
  | lineComment => exact absurd rfl h
  | literal => grind
  | doubleQuoted => grind
  | backquoted => grind
  | blockOpening => simp
  | blockComment => grind
  | blockClosing => simp

/-- The modes in which a semicolon is part of the text. -/
def Mode.IsInside (mode : Mode) : Prop := mode ≠ .plain ∧ mode ≠ .lineComment

/-- What opens a literal, an identifier or a block comment is not blank. -/
theorem Mode.opened {c : Char} {ahead : Option Char} (h : (Mode.next .plain c ahead).IsInside) : isSpace c = false := by
  have hopens : c = '\'' ∨ c = '"' ∨ c = '`' ∨ c = '/' := by
    unfold Mode.next Mode.IsInside at h
    grind
  rcases hopens with rfl | rfl | rfl | rfl
  · decide
  · decide
  · decide
  · decide

/-! ## In step -/

/-- How the splitter's state stands to SQL's, in a segment that has begun with `current`. -/
structure Reading (s : Splitting) (mode : Mode) (current : List Char) : Prop where
  comment : s.inLineComment = true ↔ mode = .lineComment
  unquoted : s.inLineComment = true → s.inSingleQuote = false
  solid : s.inSingleQuote = true ∨ mode.IsInside → Solid isSpace current

theorem acts_alike_iff {s : Splitting} {mode : Mode} (h : s.inLineComment = true ↔ mode = .lineComment) (c : Char)
    (ahead : Option Char) : s.act c ahead = mode.act c ahead ↔
      (mode ≠ .lineComment → IsMark c ahead → (mode = .plain ↔ s.inSingleQuote = false)) := by
  by_cases hcomment : mode = .lineComment
  · rw [Splitting.act_comment (h.2 hcomment), hcomment]
    simp [Mode.act]
  · have hfalse : s.inLineComment = false := by simpa using mt h.1 hcomment
    have hkeep := markAct_ne_keep c
    rw [Splitting.act_eq hfalse, Mode.act_eq hcomment]
    by_cases hmark : IsMark c ahead
    · by_cases hplain : mode = .plain
      · by_cases hquote : s.inSingleQuote = false
        · simp [hmark, hplain, hquote]
        · simp [hmark, hplain, hquote, hkeep.symm]
      · by_cases hquote : s.inSingleQuote = false
        · simp [hmark, hplain, hquote, hkeep, hcomment]
        · simp [hmark, hplain, hquote]
    · simp [hmark]

theorem Mode.not_isInside_of_mark {c : Char} {ahead : Option Char} (h : IsMark c ahead) :
    ¬ (Mode.next .plain c ahead).IsInside := by
  unfold Mode.next Mode.IsInside
  rcases h with rfl | ⟨rfl, rfl⟩
  · simp
  · simp

/-- In a line comment both read on to the line break. -/
theorem Reading.next_comment {s : Splitting} {current : List Char} (h : Reading s .lineComment current) (c : Char)
    (ahead : Option Char) (after : List Char) : Reading (s.next c ahead) (Mode.next .lineComment c ahead) after := by
  have htrue := h.comment.2 rfl
  have hquote := h.unquoted htrue
  have hnext : s.next c ahead = ⟨s.inSingleQuote, c ≠ '\n'⟩ := by rw [Splitting.next, if_pos htrue]
  rw [hnext, hquote, Mode.next]
  by_cases hbreak : c = '\n'
  · exact ⟨by simp [hbreak], fun _ => rfl, by simp [hbreak, Mode.IsInside]⟩
  · exact ⟨by simp [hbreak], fun _ => rfl, by simp [hbreak, Mode.IsInside]⟩

/-- What has begun inside goes on. -/
theorem Reading.kept_inside {s : Splitting} {mode : Mode} {current : List Char} (h : Reading s mode current)
    (hcomment : mode ≠ .lineComment) {c : Char} {ahead : Option Char} (hact : s.act c ahead = mode.act c ahead)
    (hinside : s.inSingleQuote = true ∨ mode.IsInside) : s.act c ahead = .keep := by
  rcases hinside with hquote | hmode
  · have hfalse : s.inLineComment = false := by simpa using mt h.comment.1 hcomment
    rw [Splitting.act_eq hfalse, if_neg]
    rintro ⟨hnone, -⟩
    rw [hquote] at hnone
    cases hnone
  · rw [hact, Mode.act_eq hcomment, if_neg (fun hand => hmode.1 hand.1)]

/-- A character that opens a literal, an identifier or a block comment, or that the splitter takes for a quote, is kept, and
is not blank. -/
theorem Reading.kept_opening {s : Splitting} {current : List Char} (h : Reading s .plain current) {c : Char}
    {ahead : Option Char} (hquote : s.inSingleQuote = false)
    (hopens : (s.next c ahead).inSingleQuote = true ∨ (Mode.next .plain c ahead).IsInside) :
    s.act c ahead = .keep ∧ isSpace c = false := by
  have hfalse : s.inLineComment = false := by simpa using mt h.comment.1 (by decide)
  rw [Splitting.act_eq hfalse]
  rcases hopens with hquoted | hopened
  · have hc : c = '\'' := by
      refine Classical.byContradiction (fun hne => ?_)
      rw [Splitting.next_eq hfalse] at hquoted
      simp [hne, hquote] at hquoted
    subst hc
    exact ⟨if_neg (fun hand => absurd hand.2 (by simp [IsMark])), by decide⟩
  · exact ⟨if_neg (fun hand => Mode.not_isInside_of_mark hand.2 hopened), Mode.opened hopened⟩

/-- **One character on, the two are still in step.** -/
theorem Reading.next {s : Splitting} {mode : Mode} {current : List Char} {c : Char} {ahead : Option Char}
    (h : Reading s mode current) (hact : s.act c ahead = mode.act c ahead) :
    Reading (s.next c ahead) (mode.next c ahead) ((s.act c ahead).extend current c) := by
  by_cases hcomment : mode = .lineComment
  · subst hcomment
    exact h.next_comment c ahead _
  · have hfalse : s.inLineComment = false := by simpa using mt h.comment.1 hcomment
    have hmark := (acts_alike_iff h.comment c ahead).1 hact hcomment
    refine ⟨?_, ?_, ?_⟩
    · rw [Splitting.next_eq hfalse, Mode.next_eq_lineComment_iff hcomment, decide_eq_true_eq]
      exact ⟨fun ⟨hquote, hdash⟩ => ⟨(hmark (Or.inr hdash)).2 hquote, hdash⟩,
        fun ⟨hplain, hdash⟩ => ⟨(hmark (Or.inr hdash)).1 hplain, hdash⟩⟩
    · rw [Splitting.next_eq hfalse, decide_eq_true_eq]
      rintro ⟨hquote, rfl, -⟩
      exact hquote
    · intro hinside
      by_cases hsolid : s.inSingleQuote = true ∨ mode.IsInside
      · rw [h.kept_inside hcomment hact hsolid]
        exact (h.solid hsolid).append_left [c]
      · obtain ⟨hquote, hmode⟩ := not_or.1 hsolid
        have hplain : mode = .plain := Classical.byContradiction (fun hne => hmode ⟨hne, hcomment⟩)
        subst hplain
        obtain ⟨hkept, hblank⟩ := h.kept_opening (by simpa using hquote) hinside
        rw [hkept]
        exact solid_concat hblank current

/-- In a line comment nothing is kept before the line break. -/
theorem firstKept_splitter (quote : Bool) (cs : List Char) : firstKept (splitter.acts ⟨quote, true⟩ cs) ≠ some '-' := by
  refine firstKept_of_skips (P := fun s => s.inLineComment = true) (fun s h => s.act_comment h) ?_ rfl (by decide) cs
  intro s h c ahead hbreak
  show (s.next c ahead).inLineComment = true
  rw [Splitting.next, if_pos h]
  exact decide_eq_true hbreak

theorem firstKept_sql (cs : List Char) : firstKept (sql.acts .lineComment cs) ≠ some '-' := by
  refine firstKept_of_skips (P := fun mode => mode = Mode.lineComment) (d := '\n') ?_ ?_ rfl (by decide) cs
  · rintro mode rfl c ahead
    rfl
  · rintro mode rfl c ahead hbreak
    exact if_neg hbreak

/-- A mark that cuts, or starts a comment, is not what the segment goes on with. -/
theorem firstKept_mark {σ : Type} {m : Scanner σ} {s : σ} {c : Char} {cs : List Char} (hmark : IsMark c cs.head?)
    (hact : m.act s c cs.head? = markAct c)
    (hcomment : c = '-' → cs.head? = some '-' → firstKept (m.acts (m.next s c cs.head?) cs) ≠ some '-') :
    firstKept (m.acts s (c :: cs)) ≠ some c := by
  rw [Scanner.acts, hact]
  rcases hmark with rfl | ⟨rfl, hdash⟩
  · exact Option.some_ne_none _ ∘ Eq.symm
  · exact hcomment rfl hdash

theorem firstKept_splitter_mark {s : Splitting} {c : Char} {cs : List Char} (h : s.inLineComment = false)
    (hmark : IsMark c cs.head?) (hquote : s.inSingleQuote = false) :
    firstKept (splitter.acts s (c :: cs)) ≠ some c := by
  refine firstKept_mark hmark ?_ ?_
  · show s.act c cs.head? = markAct c
    rw [Splitting.act_eq h, if_pos ⟨hquote, hmark⟩]
  · rintro rfl hdash
    have hnext : splitter.next s '-' cs.head? = ⟨s.inSingleQuote, true⟩ := by
      show s.next '-' cs.head? = _
      rw [Splitting.next_eq h, hquote, hdash]
      rfl
    rw [hnext]
    exact firstKept_splitter s.inSingleQuote cs

theorem firstKept_sql_mark {c : Char} {cs : List Char} (hmark : IsMark c cs.head?) :
    firstKept (sql.acts .plain (c :: cs)) ≠ some c := by
  refine firstKept_mark hmark ?_ ?_
  · show Mode.act .plain c cs.head? = markAct c
    rw [Mode.act_eq (by decide), if_pos ⟨rfl, hmark⟩]
  · rintro rfl hdash
    have hnext : sql.next .plain '-' cs.head? = .lineComment :=
      (Mode.next_eq_lineComment_iff (by decide) '-' cs.head?).2 ⟨rfl, rfl, hdash⟩
    rw [hnext]
    exact firstKept_sql cs

/-- **Where the two part, it shows: over a mark, in a segment with a quote, or with what opened the mode.** -/
theorem Reading.apart {s : Splitting} {mode : Mode} {current : List Char} {c : Char} {cs : List Char}
    (h : Reading s mode current) (hact : s.act c cs.head? ≠ mode.act c cs.head?) :
    Shows isSpace current c (splitter.acts s (c :: cs)) (sql.acts mode (c :: cs)) ∨
      Shows isSpace current c (sql.acts mode (c :: cs)) (splitter.acts s (c :: cs)) := by
  have hparts := mt (acts_alike_iff h.comment c cs.head?).2 hact
  simp only [not_forall] at hparts
  obtain ⟨hcomment, hmark, hparts⟩ := hparts
  have hfalse : s.inLineComment = false := by simpa using mt h.comment.1 hcomment
  by_cases hplain : mode = .plain
  · subst hplain
    have hquote : s.inSingleQuote = true := by simpa using hparts
    have hkept : s.act c cs.head? = .keep := by
      rw [Splitting.act_eq hfalse, hquote]
      simp
    refine Or.inl ⟨h.solid (Or.inl hquote), hmark.isSpace_eq, ?_, firstKept_sql_mark hmark⟩
    show firstKept ((c, s.act c cs.head?) :: _) = some c
    rw [hkept]
    rfl
  · have hquote : s.inSingleQuote = false := by simpa [hplain] using hparts
    have hkept : mode.act c cs.head? = .keep := by
      rw [Mode.act_eq hcomment, if_neg (fun hand => hplain hand.1)]
    refine Or.inr ⟨h.solid (Or.inr ⟨hplain, hcomment⟩), hmark.isSpace_eq, ?_, firstKept_splitter_mark hfalse hmark hquote⟩
    show firstKept ((c, mode.act c cs.head?) :: _) = some c
    rw [hkept]
    rfl

theorem splitter_inStep_sql : InStep isSpace splitter sql Reading := ⟨Reading.next, Reading.apart⟩

theorem reading_start : Reading ⟨false, false⟩ .plain [] where
  comment := by simp
  unquoted := by simp
  solid := by
    rintro (hquote | hinside)
    · cases hquote
    · exact absurd rfl hinside.1

/-! ## Where the two part -/

/-- The apostrophes that stand outside line comments. -/
def quotes (before : List (Char × Mode)) : Nat := before.countP (fun p => p.1 = '\'' ∧ p.2 ≠ .lineComment)

/-- Each semicolon and dash pair outside line comments stands in plain text if an even number of apostrophes is before it,
and only then. -/
def QuotesAlone (text : List Char) : Prop :=
  ∀ before p after, sql.scan .plain text = before ++ p :: after → p.2 ≠ .lineComment →
    IsMark p.1 (after.head?.map Prod.fst) → (p.2 = .plain ↔ Even (quotes before))

theorem head?_scan {σ : Type} (m : Scanner σ) (s : σ) (cs : List Char) : (m.scan s cs).head?.map Prod.fst = cs.head? := by
  cases cs with
  | nil => rfl
  | cons c cs => rfl

/-- The splitter is in a quote after an odd number of apostrophes. -/
theorem Reading.even_next {s : Splitting} {mode : Mode} {current : List Char} (h : Reading s mode current) (c : Char)
    (ahead : Option Char) (before : List (Char × Mode)) :
    Even (quotes ((c, mode) :: before) + s.inSingleQuote.toNat) ↔
      Even (quotes before + (s.next c ahead).inSingleQuote.toNat) := by
  unfold quotes
  rw [List.countP_cons]
  by_cases hcomment : mode = .lineComment
  · rw [Splitting.next, if_pos (h.comment.2 hcomment)]
    simp [hcomment]
  · have hfalse : s.inLineComment = false := by simpa using mt h.comment.1 hcomment
    rw [Splitting.next_eq hfalse]
    by_cases hc : c = '\''
    · rw [if_pos (by simp [hc, hcomment]), if_pos hc, Nat.even_iff, Nat.even_iff]
      cases s.inSingleQuote with
      | true =>
        simp only [Bool.toNat_true, Bool.not_true, Bool.toNat_false]
        omega
      | false =>
        simp only [Bool.toNat_true, Bool.not_false, Bool.toNat_false]
    · rw [if_neg (by simp [hc]), if_neg hc, Nat.add_zero]

/-- **The two act alike where every mark stands outside exactly after an even number of apostrophes.** -/
theorem Reading.acts_eq_iff {s : Splitting} {mode : Mode} {current : List Char} (h : Reading s mode current)
    (cs : List Char) : splitter.acts s cs = sql.acts mode cs ↔
      ∀ before p after, sql.scan mode cs = before ++ p :: after → p.2 ≠ .lineComment →
        IsMark p.1 (after.head?.map Prod.fst) → (p.2 = .plain ↔ Even (quotes before + s.inSingleQuote.toNat)) := by
  induction cs generalizing s mode current with
  | nil =>
    refine ⟨fun _ before p after hscan => ?_, fun _ => rfl⟩
    exact absurd (List.append_eq_nil_iff.1 hscan.symm).2 (List.cons_ne_nil p after)
  | cons c cs ih =>
    have hhere := acts_alike_iff h.comment c cs.head?
    have heven : Even (quotes [] + s.inSingleQuote.toNat) ↔ s.inSingleQuote = false := by
      cases s.inSingleQuote with
      | true => decide
      | false => decide
    rw [Scanner.scan, forall_split_cons (P := fun before p after => p.2 ≠ Mode.lineComment →
      IsMark p.1 (after.head?.map Prod.fst) → (p.2 = .plain ↔ Even (quotes before + s.inSingleQuote.toNat))), head?_scan,
      heven, ← hhere]
    by_cases hact : s.act c cs.head? = mode.act c cs.head?
    · rw [and_iff_right hact, Scanner.acts_cons_eq_iff hact]
      simp only [h.even_next c cs.head?]
      exact ih (h.next hact)
    · exact iff_of_false (Scanner.acts_cons_ne hact) (fun hand => hact hand.1)

/-- **A text is split as SQL reads it exactly when each semicolon and dash pair outside line comments has an even number
of apostrophes before it where it stands in plain text, and an odd number elsewhere.** -/
theorem splitStatements_eq_iff (text : List Char) : splitStatements text = statements text ↔ QuotesAlone text := by
  rw [splitStatements_eq, statements, ← segmentsFrom_nil_left, splitter_inStep_sql.statements_eq_iff reading_start,
    reading_start.acts_eq_iff]
  exact Iff.rfl

/-- A semicolon in a quoted identifier cuts the statement in two, and one after an apostrophe in a comment does not. -/
theorem quoted_identifier_truncated :
    splitStatements "SELECT \"a;b\"".toList = ["SELECT \"a".toList, "b\"".toList] ∧
    statements "SELECT \"a;b\"".toList = ["SELECT \"a;b\"".toList] ∧
    splitStatements "/* don't */ A; B".toList = ["/* don't */ A; B".toList] ∧
    statements "/* don't */ A; B".toList = ["/* don't */ A".toList, "B".toList] := by
  decide +kernel

end Awsnative
