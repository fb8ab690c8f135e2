/-!
# Template — `string.Template`

`substitute` puts a value in for each placeholder that its pattern finds, from left to right, and raises at the first one
that is not given or not well formed.

A template whose placeholders are all braced is a list of characters, dollars and slots, which can be read off its text
(`templateOf_text`).  Filling its slots is what `substitute` does to the text (`substitute_text`).
-/
namespace Python

/-- `[_a-z]` of the pattern, in either case. -/
def isIdStart (c : Char) : Bool := c == '_' || c.isAlpha

/-- `[_a-z0-9]` of the pattern, in either case. -/
def isIdPart (c : Char) : Bool := isIdStart c || c.isDigit

/-- The identifier that a text begins with; empty where it begins with none. -/
def identifierOf : List Char → List Char
  | []      => []
  | c :: cs => if isIdStart c then c :: cs.takeWhile isIdPart else []

/-- A character of the text, or a group of the pattern. -/
inductive Match
  | text (c : Char)
  | escaped
  | named (name : List Char)
  | braced (name : List Char)
  | invalid
  deriving DecidableEq

/-- What the pattern finds after a delimiter. -/
def matchAt : List Char → Match
  | '$' :: _  => .escaped
  | '\x7b' :: cs =>
    if identifierOf cs ≠ [] ∧ (cs.drop (identifierOf cs).length).head? = some '\x7d' then .braced (identifierOf cs)
    else .invalid
  | cs        => if identifierOf cs ≠ [] then .named (identifierOf cs) else .invalid

/-- How many characters it takes after the delimiter. -/
def Match.width : Match → Nat
  | .text _      => 0
  | .escaped     => 1
  | .named name  => name.length
  | .braced name => name.length + 2
  | .invalid     => 0

/-- `pattern.finditer`, with the text between; the first characters may belong to the match before. -/
def finditer : Nat → List Char → List Match
  | _, []          => []
  | n + 1, _ :: cs => finditer n cs
  | 0, c :: cs     => if c = '$' then matchAt cs :: finditer (matchAt cs).width cs else .text c :: finditer 0 cs

inductive TemplateError
  | missing (name : List Char)
  | invalidPlaceholder
  deriving DecidableEq

/-- The arguments, by name. -/
abbrev Params := List Char → Option (List Char)

/-- `mapping[name]`. -/
def Params.item (params : Params) (name : List Char) : Except TemplateError (List Char) :=
  (params name).elim (.error (.missing name)) .ok

/-- `convert`. -/
def Match.convert (params : Params) : Match → Except TemplateError (List Char)
  | .text c      => .ok [c]
  | .escaped     => .ok ['$']
  | .named name  => params.item name
  | .braced name => params.item name
  | .invalid     => .error .invalidPlaceholder

/-- The conversions, from left to right, up to the first that raises. -/
def convertAll (params : Params) : List Match → Except TemplateError (List Char)
  | []      => .ok []
  | m :: ms => (m.convert params).bind (fun value => (convertAll params ms).map (value ++ ·))

/-- `substitute`. -/
def substitute (params : Params) (text : List Char) : Except TemplateError (List Char) :=
  convertAll params (finditer 0 text)

section Substitute

variable {params : Params}

theorem item_eq_ok {name value : List Char} : params.item name = .ok value ↔ params name = some value := by
  unfold Params.item
  cases params name with
  | none => simp
  | some v => simp

theorem convertAll_append : ∀ (ms ms' : List Match), convertAll params (ms ++ ms') =
    (convertAll params ms).bind (fun value => (convertAll params ms').map (value ++ ·))
  | [], ms'      => by
    rw [List.nil_append, convertAll]
    cases convertAll params ms' <;> rfl
  | m :: ms, ms' => by
    rw [List.cons_append, convertAll, convertAll, convertAll_append ms ms']
    cases m.convert params with
    | error e => rfl
    | ok value =>
      cases convertAll params ms with
      | error e => rfl
      | ok values => cases convertAll params ms' <;> simp [Except.bind, Except.map]

end Substitute

/-! ## Templates with braced placeholders -/

structure IsIdentifier (name : List Char) : Prop where
  start : ∃ c cs, name = c :: cs ∧ isIdStart c = true
  part : ∀ c ∈ name, isIdPart c = true

theorem isIdentifier_iff {name : List Char} :
    IsIdentifier name ↔ name.head?.any isIdStart = true ∧ name.all isIdPart = true := by
  cases name with
  | nil =>
    refine ⟨?_, ?_⟩
    · rintro ⟨⟨_, _, h, -⟩, -⟩
      cases h
    · rintro ⟨h, -⟩
      cases h
  | cons c cs =>
    rw [List.all_eq_true]
    constructor
    · rintro ⟨⟨_, _, h, hstart⟩, hpart⟩
      cases h
      exact ⟨hstart, hpart⟩
    · rintro ⟨hstart, hpart⟩
      exact ⟨⟨c, cs, rfl, hstart⟩, hpart⟩

instance (name : List Char) : Decidable (IsIdentifier name) := decidable_of_iff _ isIdentifier_iff.symm

inductive Piece
  | literal (c : Char) (plain : c ≠ '$')
  | dollar
  | slot (name : List Char) (identifier : IsIdentifier name)
  deriving DecidableEq

abbrev Template := List Piece

def Piece.text : Piece → List Char
  | .literal c _ => [c]
  | .dollar      => ['$', '$']
  | .slot name _ => '$' :: '\x7b' :: (name ++ ['\x7d'])

def Template.text (t : Template) : List Char := t.flatMap Piece.text

def Piece.toMatch : Piece → Match
  | .literal c _ => .text c
  | .dollar      => .escaped
  | .slot name _ => .braced name

/-- The piece that a match is of. -/
def pieceOf : Match → Option Piece
  | .text c      => if h : c ≠ '$' then some (.literal c h) else none
  | .escaped     => some .dollar
  | .braced name => if h : IsIdentifier name then some (.slot name h) else none
  | _            => none

/-- The template of a text. -/
def templateOf (text : List Char) : Option Template := (finditer 0 text).mapM pieceOf

def Piece.fill (values : List Char → Except TemplateError (List Char)) : Piece → Except TemplateError (List Char)
  | .literal c _ => .ok [c]
  | .dollar      => .ok ['$']
  | .slot name _ => values name

/-- A value for each slot. -/
def Template.fill (values : List Char → Except TemplateError (List Char)) : Template → Except TemplateError (List Char)
  | []     => .ok []
  | p :: t => (p.fill values).bind (fun text => (Template.fill values t).map (text ++ ·))

section Templates

variable {name rest : List Char}

theorem identifierOf_append (h : IsIdentifier name) (hrest : ∀ c, rest.head? = some c → isIdPart c = false) :
    identifierOf (name ++ rest) = name := by
  obtain ⟨c, cs, rfl, hstart⟩ := h.start
  rw [List.cons_append, identifierOf, if_pos hstart]
  congr 1
  rw [List.takeWhile_append_of_pos (fun d hd => h.part d (List.mem_cons_of_mem c hd))]
  cases rest with
  | nil => simp
  | cons d ds => rw [List.takeWhile_cons_of_neg (by rw [hrest d rfl]; decide), List.append_nil]

theorem matchAt_slot (h : IsIdentifier name) (rest : List Char) :
    matchAt ('\x7b' :: (name ++ '\x7d' :: rest)) = .braced name := by
  have hname : identifierOf (name ++ '\x7d' :: rest) = name :=
    identifierOf_append h (fun c hc => by rw [List.head?_cons, Option.some.injEq] at hc; rw [← hc]; decide)
  have hne : name ≠ [] := by
    obtain ⟨c, cs, rfl, -⟩ := h.start
    exact List.cons_ne_nil c cs
  rw [matchAt, hname, List.drop_left]
  exact if_pos ⟨hne, rfl⟩

theorem finditer_skip : ∀ (skipped rest : List Char), finditer skipped.length (skipped ++ rest) = finditer 0 rest
  | [], rest           => rfl
  | c :: skipped, rest => by rw [List.cons_append, List.length_cons, finditer, finditer_skip skipped rest]

theorem finditer_piece (p : Piece) (rest : List Char) : finditer 0 (p.text ++ rest) = p.toMatch :: finditer 0 rest := by
  cases p with
  | literal c plain => rw [Piece.text, List.singleton_append, finditer, if_neg plain, Piece.toMatch]
  | dollar => rfl
  | slot name h =>
    have htext : (Piece.slot name h).text ++ rest = '$' :: ('\x7b' :: (name ++ '\x7d' :: rest)) := by
      simp [Piece.text]
    have hskip := finditer_skip ('\x7b' :: (name ++ ['\x7d'])) rest
    rw [htext, finditer, if_pos rfl, matchAt_slot h, Piece.toMatch]
    congr 1
    rw [show (Match.braced name).width = ('\x7b' :: (name ++ ['\x7d'])).length by simp [Match.width], ← hskip]
    simp

/-- Nothing of what follows is read into a template. -/
theorem finditer_text : ∀ (t : Template) (rest : List Char),
    finditer 0 (t.text ++ rest) = t.map Piece.toMatch ++ finditer 0 rest
  | [], rest     => rfl
  | p :: t, rest => by
    have htext : Template.text (p :: t) = p.text ++ Template.text t := List.flatMap_cons
    rw [htext, List.append_assoc, finditer_piece, finditer_text t rest, List.map_cons, List.cons_append]

theorem pieceOf_toMatch (p : Piece) : pieceOf p.toMatch = some p := by
  cases p with
  | literal c plain => exact dif_pos plain
  | dollar => rfl
  | slot name h => exact dif_pos h

/-- **A template is read off its text.** -/
theorem templateOf_text (t : Template) : templateOf t.text = some t := by
  have hpieces : (t.map Piece.toMatch).mapM pieceOf = some t := by
    induction t with
    | nil => rfl
    | cons p t ih =>
      rw [List.map_cons, List.mapM_cons, pieceOf_toMatch, ih]
      rfl
  have h := finditer_text t []
  rw [List.append_nil] at h
  rw [templateOf, h, show finditer 0 [] = [] from rfl, List.append_nil, hpieces]

/-- A property of the template of a text, where it has one. -/
theorem exists_template_iff {text : List Char} {p : Template → Prop} : (∃ t : Template, t.text = text ∧ p t) ↔
    ∃ t ∈ templateOf text, t.text = text ∧ p t := by
  constructor
  · rintro ⟨t, rfl, hp⟩
    exact ⟨t, templateOf_text t, rfl, hp⟩
  · rintro ⟨t, -, hp⟩
    exact ⟨t, hp⟩

theorem finditer_plain {plain : List Char} (h : '$' ∉ plain) (rest : List Char) :
    finditer 0 (plain ++ rest) = plain.map Match.text ++ finditer 0 rest := by
  induction plain with
  | nil => rfl
  | cons c plain ih =>
    have hc : c ≠ '$' := fun heq => h (heq ▸ List.mem_cons_self ..)
    have hplain : '$' ∉ plain := fun hmem => h (List.mem_cons_of_mem c hmem)
    rw [List.cons_append, finditer, if_neg hc, ih hplain, List.map_cons, List.cons_append]

theorem convertAll_text (params : Params) : ∀ plain : List Char, convertAll params (plain.map Match.text) = .ok plain
  | []         => rfl
  | c :: plain => by
    rw [List.map_cons, convertAll, convertAll_text params plain]
    rfl

/-- One slot between two stretches of plain text. -/
theorem substitute_between {params : Params} {pre post value : List Char} (hpre : '$' ∉ pre) (hpost : '$' ∉ post)
    (h : IsIdentifier name) (hvalue : params name = some value) :
    substitute params (pre ++ (Piece.slot name h).text ++ post) = .ok (pre ++ value ++ post) := by
  have hrest := finditer_plain hpost []
  rw [List.append_nil] at hrest
  rw [substitute, List.append_assoc, finditer_plain hpre, finditer_piece, hrest, convertAll_append, convertAll_text,
    show finditer 0 [] = [] from rfl, List.append_nil, convertAll, convertAll_text, Piece.toMatch, Match.convert,
    item_eq_ok.2 hvalue, List.append_assoc]
  rfl

theorem convertAll_toMatch (params : Params) : ∀ t : Template, convertAll params (t.map Piece.toMatch) = t.fill params.item
  | []     => rfl
  | p :: t => by
    have hp : p.toMatch.convert params = p.fill params.item := by
      cases p <;> rfl
    rw [List.map_cons, convertAll, convertAll_toMatch params t, Template.fill, hp]

/-- **`substitute` fills the slots.** -/
theorem substitute_text (params : Params) (t : Template) : substitute params t.text = t.fill params.item := by
  have h := finditer_text t []
  rw [List.append_nil] at h
  rw [substitute, h, show finditer 0 [] = [] from rfl, List.append_nil, convertAll_toMatch]

theorem fill_cons_ok {values : List Char → Except TemplateError (List Char)} {p : Piece} {t : Template} {text : List Char}
    (h : Template.fill values (p :: t) = .ok text) :
    ∃ head rest, p.fill values = .ok head ∧ t.fill values = .ok rest ∧ text = head ++ rest := by
  rw [Template.fill] at h
  cases hhead : p.fill values with
  | error e =>
    rw [hhead] at h
    cases h
  | ok head =>
    cases hrest : t.fill values with
    | error e =>
      rw [hhead, hrest] at h
      cases h
    | ok rest =>
      rw [hhead, hrest] at h
      exact ⟨head, rest, rfl, rfl, (Except.ok.inj h).symm⟩

end Templates

end Python
