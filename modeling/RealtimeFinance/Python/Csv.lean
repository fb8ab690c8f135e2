/-!
# Csv — `csv.reader` over a `StringIO`

The reader of the default dialect: a machine on the characters of a line and the line's end.  A record ends with its
line unless a quoted field is open.  Records of plain fields are read as they were written (`reader_writeRecords`).
-/
namespace Python.Csv

/-- `csv.Error`. -/
inductive Error
  | fieldLargerThanLimit
  | newLineInUnquotedField
  deriving DecidableEq

/-- `csv.field_size_limit()`. -/
def fieldSizeLimit : Nat := 131072

inductive State
  | startRecord
  | startField
  | inField
  | inQuotedField
  | quoteInQuotedField
  | eatCrnl
  deriving DecidableEq

structure Reader where
  state : State
  field : List Char
  fields : List (List Char)

namespace Reader

def reset : Reader := ⟨.startRecord, [], []⟩

def saveField (r : Reader) (state : State) : Reader := ⟨state, [], r.fields ++ [r.field]⟩

def addChar (r : Reader) (state : State) (c : Char) : Except Error Reader :=
  if fieldSizeLimit ≤ r.field.length then .error .fieldLargerThanLimit
  else .ok ⟨state, r.field ++ [c], r.fields⟩

def isNewline (c : Char) : Bool := c == '\n' || c == '\r'

/-- At the start of a field; no character is the end of the line. -/
def start (r : Reader) : Option Char → Except Error Reader
  | none   => .ok (r.saveField .startRecord)
  | some c =>
    if isNewline c then .ok (r.saveField .eatCrnl)
    else if c = '"' then .ok { r with state := .inQuotedField }
    else if c = ',' then .ok (r.saveField .startField)
    else r.addChar .inField c

def process (r : Reader) (c : Option Char) : Except Error Reader :=
  match r.state, c with
  | .startRecord, none   => .ok r
  | .startRecord, some c => if isNewline c then .ok { r with state := .eatCrnl } else r.start (some c)
  | .startField, c       => r.start c
  | .inField, none       => .ok (r.saveField .startRecord)
  | .inField, some c     =>
    if isNewline c then .ok (r.saveField .eatCrnl)
    else if c = ',' then .ok (r.saveField .startField)
    else r.addChar .inField c
  | .inQuotedField, none   => .ok r
  | .inQuotedField, some c =>
    if c = '"' then .ok { r with state := .quoteInQuotedField } else r.addChar .inQuotedField c
  | .quoteInQuotedField, none   => .ok (r.saveField .startRecord)
  | .quoteInQuotedField, some c =>
    -- a doubled quote is a quote
    if c = '"' then r.addChar .inQuotedField c
    else if c = ',' then .ok (r.saveField .startField)
    else if isNewline c then .ok (r.saveField .eatCrnl)
    else r.addChar .inField c
  | .eatCrnl, none   => .ok { r with state := .startRecord }
  | .eatCrnl, some c => if isNewline c then .ok r else .error .newLineInUnquotedField

def line (r : Reader) (cs : List Char) : Except Error Reader := (cs.map some ++ [none]).foldlM process r

end Reader

/-- What the reader yields, up to its end or the error it raises. -/
structure Records where
  records : List (List (List Char))
  error : Option Error

def readFrom (r : Reader) : List (List Char) → Records
  | []          =>
    if r.state = .inQuotedField ∨ r.field ≠ [] then ⟨[r.fields ++ [r.field]], none⟩ else ⟨[], none⟩
  | cs :: lines =>
    match r.line cs with
    | .error e => ⟨[], some e⟩
    | .ok r    =>
      if r.state = .startRecord then
        ⟨r.fields :: (readFrom .reset lines).records, (readFrom .reset lines).error⟩
      else readFrom r lines

/-- The lines of a `StringIO` whose current line has begun with `line`, each with its end. -/
def linesFrom (line : List Char) : List Char → List (List Char)
  | []      => if line.isEmpty then [] else [line]
  | c :: cs => if c = '\n' then (line ++ [c]) :: linesFrom [] cs else linesFrom (line ++ [c]) cs

/-- `csv.reader(StringIO(text))`. -/
def reader (text : List Char) : Records := readFrom .reset (linesFrom [] text)

/-! ## Plain records -/

/-- A character that is no part of the format. -/
def PlainChar (c : Char) : Prop := c ≠ ',' ∧ c ≠ '"' ∧ c ≠ '\n' ∧ c ≠ '\r'

instance : DecidablePred PlainChar := fun _ => inferInstanceAs (Decidable (_ ∧ _))

structure Plain (record : List (List Char)) : Prop where
  nonempty : record ≠ []
  notBlank : record ≠ [[]]
  length_le : ∀ f ∈ record, f.length ≤ fieldSizeLimit
  plain : ∀ f ∈ record, ∀ c ∈ f, PlainChar c

theorem plain_of_all {record : List (List Char)} (hnonempty : record ≠ []) (hblank : record ≠ [[]])
    (hall : record.all (fun f => decide (f.length ≤ fieldSizeLimit) && f.all (fun c => decide (PlainChar c))) = true) :
    Plain record := by
  have hfield : ∀ f ∈ record, f.length ≤ fieldSizeLimit ∧ f.all (fun c => decide (PlainChar c)) = true := by
    intro f hf
    have hboth := List.all_eq_true.1 hall f hf
    rw [Bool.and_eq_true] at hboth
    exact ⟨of_decide_eq_true hboth.1, hboth.2⟩
  exact ⟨hnonempty, hblank, fun f hf => (hfield f hf).1,
    fun f hf c hc => of_decide_eq_true (List.all_eq_true.1 (hfield f hf).2 c hc)⟩

def writeRecord (record : List (List Char)) : List Char := [','].intercalate record ++ ['\n']

def writeRecords (records : List (List (List Char))) : List Char := records.flatMap writeRecord

theorem PlainChar.not_newline {c : Char} (h : PlainChar c) : Reader.isNewline c = false := by
  simp [Reader.isNewline, h.2.2.1, h.2.2.2]

theorem addChar_ok {r : Reader} {c : Char} {state : State} (h : r.field.length < fieldSizeLimit) :
    r.addChar state c = .ok ⟨state, r.field ++ [c], r.fields⟩ := if_neg (Nat.not_le.2 h)

/-- The rest of a field. -/
theorem inField_run : ∀ (cs field : List Char) (fields : List (List Char)) (rest : List (Option Char)),
    (∀ c ∈ cs, PlainChar c) → field.length + cs.length ≤ fieldSizeLimit →
    (cs.map some ++ rest).foldlM Reader.process ⟨.inField, field, fields⟩ =
      rest.foldlM Reader.process ⟨.inField, field ++ cs, fields⟩
  | [], field, fields, rest, _, _ => by simp
  | c :: cs, field, fields, rest, hplain, hlength => by
    obtain ⟨hc, hcs⟩ := List.forall_mem_cons.1 hplain
    rw [List.length_cons] at hlength
    have hstep : Reader.process ⟨.inField, field, fields⟩ (some c) = .ok ⟨.inField, field ++ [c], fields⟩ := by
      simp only [Reader.process, hc.not_newline, if_neg hc.1, Bool.false_eq_true, if_false]
      exact addChar_ok (by show field.length < fieldSizeLimit; omega)
    have ih := inField_run cs (field ++ [c]) fields rest hcs (by rw [List.length_append, List.length_singleton]; omega)
    rw [List.map_cons, List.cons_append, List.foldlM_cons, hstep]
    show List.foldlM _ _ _ = _
    rw [ih, List.append_assoc, List.singleton_append]

/-- A field, from its start. -/
theorem startField_run (f : List Char) (fields : List (List Char)) (sep : Char) (rest : List (Option Char))
    (hplain : ∀ c ∈ f, PlainChar c) (hlength : f.length ≤ fieldSizeLimit) (hsep : sep = ',' ∨ sep = '\n') :
    (f.map some ++ some sep :: rest).foldlM Reader.process ⟨.startField, [], fields⟩ =
      rest.foldlM Reader.process ⟨if sep = ',' then .startField else .eatCrnl, [], fields ++ [f]⟩ := by
  cases f with
  | nil =>
    rw [List.map_nil, List.nil_append, List.foldlM_cons]
    rcases hsep with rfl | rfl <;> rfl
  | cons c cs =>
    obtain ⟨hc, hcs⟩ := List.forall_mem_cons.1 hplain
    rw [List.length_cons] at hlength
    have hstep : Reader.process ⟨.startField, [], fields⟩ (some c) = .ok ⟨.inField, [c], fields⟩ := by
      simp only [Reader.process, Reader.start, hc.not_newline, if_neg hc.1, if_neg hc.2.1, Bool.false_eq_true, if_false]
      exact addChar_ok (by show 0 < fieldSizeLimit; decide)
    have hend : Reader.process ⟨.inField, [c] ++ cs, fields⟩ (some sep) =
        .ok ⟨if sep = ',' then .startField else .eatCrnl, [], fields ++ [c :: cs]⟩ := by
      rcases hsep with rfl | rfl <;> rfl
    rw [List.map_cons, List.cons_append, List.foldlM_cons, hstep]
    show List.foldlM _ _ _ = _
    rw [inField_run cs [c] fields _ hcs (by rw [List.length_singleton]; omega), List.foldlM_cons, hend]
    rfl

/-- The rest of a record, from the start of a field. -/
theorem startField_record : ∀ (record fields : List (List Char)), record ≠ [] →
    (∀ f ∈ record, f.length ≤ fieldSizeLimit) → (∀ f ∈ record, ∀ c ∈ f, PlainChar c) →
    Reader.line ⟨.startField, [], fields⟩ (writeRecord record) = .ok ⟨.startRecord, [], fields ++ record⟩
  | [], _, hne, _, _ => absurd rfl hne
  | [f], fields, _, hlength, hplain => by
    have hrun := startField_run f fields '\n' [none] (hplain f List.mem_cons_self) (hlength f List.mem_cons_self)
      (Or.inr rfl)
    simp only [Reader.line, writeRecord, List.intercalate_singleton, List.map_append, List.map_cons, List.map_nil,
      List.append_assoc, List.singleton_append]
    rw [hrun]
    rfl
  | f :: g :: record, fields, _, hlength, hplain => by
    have ih := startField_record (g :: record) (fields ++ [f]) (List.cons_ne_nil _ _)
      (fun x hx => hlength x (List.mem_cons_of_mem _ hx)) (fun x hx => hplain x (List.mem_cons_of_mem _ hx))
    have hwrite : (writeRecord (f :: g :: record)).map some ++ [none] =
        f.map some ++ some ',' :: ((writeRecord (g :: record)).map some ++ [none]) := by
      simp only [writeRecord, List.intercalate_cons_cons, List.map_append, List.map_cons, List.map_nil, List.append_assoc,
        List.cons_append, List.nil_append]
    have hrun := startField_run f fields ',' ((writeRecord (g :: record)).map some ++ [none])
      (hplain f List.mem_cons_self) (hlength f List.mem_cons_self) (Or.inl rfl)
    unfold Reader.line at ih ⊢
    rw [hwrite, hrun, if_pos rfl, ih, List.append_assoc, List.singleton_append]

/-- A record starts as a field does, unless it is a blank line. -/
theorem reset_line (record : List (List Char)) (h : Plain record) :
    Reader.line .reset (writeRecord record) = Reader.line ⟨.startField, [], []⟩ (writeRecord record) := by
  have hfirst : ∀ (c : Char) (cs : List Char), Reader.isNewline c = false →
      Reader.line .reset (c :: cs) = Reader.line ⟨.startField, [], []⟩ (c :: cs) := by
    intro c cs hc
    have hstep : Reader.process .reset (some c) = Reader.process ⟨.startField, [], []⟩ (some c) := by
      simp [Reader.process, Reader.reset, Reader.start, hc, Reader.saveField, Reader.addChar]
    unfold Reader.line
    rw [List.map_cons, List.cons_append, List.foldlM_cons, List.foldlM_cons, hstep]
  match record, h with
  | [], h => exact absurd rfl h.nonempty
  | [[]], h => exact absurd rfl h.notBlank
  | (c :: cs) :: record, h =>
    have hc := (h.plain _ List.mem_cons_self c List.mem_cons_self).not_newline
    cases record with
    | nil => exact hfirst c _ hc
    | cons g record => exact hfirst c _ hc
  | [] :: g :: record, h => exact hfirst ',' _ rfl

theorem linesFrom_append : ∀ (cs line rest : List Char), (∀ c ∈ cs, c ≠ '\n') →
    linesFrom line (cs ++ '\n' :: rest) = (line ++ cs ++ ['\n']) :: linesFrom [] rest
  | [], line, rest, _ => by simp [linesFrom]
  | c :: cs, line, rest, h => by
    obtain ⟨hc, hcs⟩ := List.forall_mem_cons.1 h
    rw [List.cons_append, linesFrom, if_neg hc, linesFrom_append cs (line ++ [c]) rest hcs]
    simp

theorem not_newline_of_mem : ∀ (record : List (List Char)), (∀ f ∈ record, ∀ c ∈ f, PlainChar c) →
    ∀ c ∈ [','].intercalate record, c ≠ '\n'
  | [], _, c, hc => by simp at hc
  | [f], hplain, c, hc => by
    rw [List.intercalate_singleton] at hc
    exact (hplain f List.mem_cons_self c hc).2.2.1
  | f :: g :: record, hplain, c, hc => by
    rw [List.intercalate_cons_cons, List.mem_append, List.mem_append, List.mem_singleton] at hc
    rcases hc with (hc | rfl) | hc
    · exact (hplain f List.mem_cons_self c hc).2.2.1
    · decide
    · exact not_newline_of_mem (g :: record) (fun x hx => hplain x (List.mem_cons_of_mem _ hx)) c hc

/-- **Plain records are read as they were written.** -/
theorem reader_writeRecords (records : List (List (List Char))) (h : ∀ record ∈ records, Plain record) :
    reader (writeRecords records) = ⟨records, none⟩ := by
  unfold reader writeRecords
  induction records with
  | nil => rfl
  | cons record records ih =>
    obtain ⟨hrecord, hrecords⟩ := List.forall_mem_cons.1 h
    have hlines : linesFrom [] (writeRecord record ++ records.flatMap writeRecord) =
        writeRecord record :: linesFrom [] (records.flatMap writeRecord) := by
      unfold writeRecord
      rw [List.append_assoc, List.singleton_append,
        linesFrom_append _ [] _ (not_newline_of_mem record hrecord.plain), List.nil_append]
    have hline : Reader.line .reset (writeRecord record) = .ok ⟨.startRecord, [], record⟩ := by
      rw [reset_line record hrecord, startField_record record [] hrecord.nonempty hrecord.length_le hrecord.plain,
        List.nil_append]
    rw [List.flatMap_cons, hlines, readFrom]
    simp only [hline, if_true]
    rw [ih hrecords]

end Python.Csv
