import RealtimeFinance.Awsnative.Quarantine
import RealtimeFinance.Sql.Joined
import RealtimeFinance.Sql.Printed
/-!
# RowKey — the hash of the raw tuple

The key hashes five columns joined by `|`, a NULL as the empty text, so it knows a tuple by the pieces of its columns only
(`rowKey_eq_iff`).  A tuple is told from every other one exactly when its four text columns are there, not empty and
without a `|` (`separable_iff`); the event time takes care of itself, for no integer prints as nothing.
-/
namespace Awsnative

open Sql

/-- The columns that the key joins. -/
def rawParts (r : RawTuple) : List (List Char) :=
  [coalesce r.venue "", coalesce r.tradeId "", coalesce (r.eventTsUs.map toString) "", coalesce r.price "",
    coalesce r.size ""].map String.toList

/-- A text column that its part of the joined text stands for. -/
def PlainText (column : Option String) : Prop := ∃ text, column = some text ∧ text ≠ "" ∧ '|' ∉ text.toList

structure RawTuple.Plain (r : RawTuple) : Prop where
  venue : PlainText r.venue
  tradeId : PlainText r.tradeId
  price : PlainText r.price
  size : PlainText r.size

theorem rawText_toList (r : RawTuple) : (rawText r).toList = ['|'].intercalate (rawParts r) := by
  unfold rawText concatWs rawParts
  rw [String.toList_intercalate]
  rfl

/-- **Two tuples have one text exactly when their columns have the same pieces.** -/
theorem rawText_eq_iff (r s : RawTuple) :
    rawText r = rawText s ↔ pieces '|' (rawParts r) = pieces '|' (rawParts s) := by
  rw [← String.toList_inj, rawText_toList, rawText_toList]
  exact intercalate_eq_iff '|' (List.cons_ne_nil _ _) (List.cons_ne_nil _ _)

/-! ## Plain tuples -/

theorem plainText_eq {column column' : Option String} (h : PlainText column)
    (hpart : (coalesce column "").toList = (coalesce column' "").toList) : column = column' := by
  obtain ⟨text, rfl, hne, -⟩ := h
  have hsame : text = coalesce column' "" := String.toList_inj.1 hpart
  cases column' with
  | none => exact absurd hsame hne
  | some text' => exact congrArg some hsame

theorem eventText_eq {event event' : Option Int}
    (hpart : (coalesce (event.map toString) "").toList = (coalesce (event'.map toString) "").toList) : event = event' := by
  have hsame : coalesce (event.map toString) "" = coalesce (event'.map toString) "" := String.toList_inj.1 hpart
  cases event with
  | none => cases event' with
    | none => rfl
    | some n => exact absurd hsame.symm (toString_ne_empty n)
  | some n => cases event' with
    | none => exact absurd hsame (toString_ne_empty n)
    | some m => exact congrArg some (toString_injective hsame)

theorem eventText_plain (event : Option Int) : '|' ∉ (coalesce (event.map toString) "").toList := by
  cases event with
  | none => exact List.not_mem_nil
  | some n =>
    intro hbar
    rcases Python.mem_toString hbar with hminus | hdigit
    · exact absurd hminus (by decide)
    · exact absurd hdigit (by decide)

theorem rawParts_plain {r : RawTuple} (h : r.Plain) : ∀ part ∈ rawParts r, '|' ∉ part := by
  obtain ⟨⟨venue, hvenue, -, hv⟩, ⟨tradeId, htradeId, -, ht⟩, ⟨price, hprice, -, hp⟩, ⟨size, hsize, -, hs⟩⟩ := h
  unfold rawParts
  rw [hvenue, htradeId, hprice, hsize]
  simp only [List.map_cons, List.map_nil, List.mem_cons, List.not_mem_nil, or_false, forall_eq_or_imp, forall_eq]
  exact ⟨hv, ht, eventText_plain _, hp, hs⟩

/-- **A plain tuple shares its text with no other.** -/
theorem eq_of_plain {r s : RawTuple} (h : r.Plain) (htext : rawText r = rawText s) : r = s := by
  have hpieces := (rawText_eq_iff r s).1 htext
  rw [pieces_of_plain '|' (rawParts_plain h)] at hpieces
  -- as many pieces as columns, so the other tuple's columns are its pieces too
  have hcount : (pieces '|' (rawParts s)).length = (rawParts s).length := by rw [← hpieces]; rfl
  rw [pieces_of_plain '|' (plain_of_length_pieces hcount)] at hpieces
  unfold rawParts at hpieces
  simp only [List.map_cons, List.map_nil, List.cons.injEq, and_true] at hpieces
  obtain ⟨hv, ht, he, hp, hs⟩ := hpieces
  cases r
  cases s
  simp only [RawTuple.mk.injEq]
  exact ⟨plainText_eq h.venue hv, plainText_eq h.tradeId ht, eventText_eq he, plainText_eq h.price hp,
    plainText_eq h.size hs⟩

/-! ## Tuples that are not plain -/

/-- A column that is NULL or empty has a twin. -/
theorem exists_twin {column : Option String} (h : coalesce column "" = "") :
    ∃ twin, twin ≠ column ∧ coalesce twin "" = coalesce column "" := by
  cases column with
  | none => exact ⟨some "", by simp, rfl⟩
  | some text => exact ⟨none, by simp, h.symm⟩

/-- A column that is not plain has a twin, or is two texts with a bar between them. -/
theorem twin_or_bar {column : Option String} (h : ¬ PlainText column) :
    (∃ twin, twin ≠ column ∧ coalesce twin "" = coalesce column "") ∨
      ∃ before after, column = some (before ++ "|" ++ after) := by
  by_cases hempty : coalesce column "" = ""
  · exact Or.inl (exists_twin hempty)
  · cases column with
    | none => exact absurd rfl hempty
    | some text =>
      by_cases hbar : '|' ∈ text.toList
      · obtain ⟨before, after, hsplit⟩ := List.append_of_mem hbar
        refine Or.inr ⟨String.ofList before, String.ofList after, congrArg some (String.toList_inj.1 ?_)⟩
        simp [hsplit]
      · exact absurd ⟨text, rfl, hempty, hbar⟩ h

theorem ne_append_bar (before after : String) : before ≠ before ++ "|" ++ after := by
  intro h
  have hlength := congrArg String.length h
  have hbar : "|".length = 1 := rfl
  rw [String.length_append, String.length_append] at hlength
  omega

theorem ne_bar_append (before after : String) : after ≠ before ++ "|" ++ after := by
  intro h
  have hlength := congrArg String.length h
  have hbar : "|".length = 1 := rfl
  rw [String.length_append, String.length_append] at hlength
  omega

theorem rawText_eq (r : RawTuple) : rawText r = coalesce r.venue "" ++ "|" ++ (coalesce r.tradeId "" ++ "|" ++
    (coalesce (r.eventTsUs.map toString) "" ++ "|" ++ (coalesce r.price "" ++ "|" ++ coalesce r.size ""))) := by
  simp [rawText, concatWs]

/-- **A tuple that is not plain shares its text with another one**: the twin of a column, or a bar moved over. -/
theorem exists_same_text {r : RawTuple} (h : ¬ r.Plain) : ∃ s, s ≠ r ∧ rawText s = rawText r := by
  by_cases hvenue : PlainText r.venue
  · by_cases htradeId : PlainText r.tradeId
    · by_cases hprice : PlainText r.price
      · have hsize : ¬ PlainText r.size := fun hsize => h ⟨hvenue, htradeId, hprice, hsize⟩
        rcases twin_or_bar hsize with ⟨twin, hne, hsame⟩ | ⟨before, after, hbar⟩
        · exact ⟨{ r with size := twin }, fun heq => hne (congrArg RawTuple.size heq), by simp only [rawText_eq, hsame]⟩
        · refine ⟨{ r with price := some (coalesce r.price "" ++ "|" ++ before), size := some after }, fun heq => ?_, ?_⟩
          · exact ne_bar_append before after (Option.some.inj ((congrArg RawTuple.size heq).trans hbar))
          · simp [rawText_eq, hbar, coalesce, String.append_assoc]
      · rcases twin_or_bar hprice with ⟨twin, hne, hsame⟩ | ⟨before, after, hbar⟩
        · exact ⟨{ r with price := twin }, fun heq => hne (congrArg RawTuple.price heq), by simp only [rawText_eq, hsame]⟩
        · refine ⟨{ r with price := some before, size := some (after ++ "|" ++ coalesce r.size "") }, fun heq => ?_, ?_⟩
          · exact ne_append_bar before after (Option.some.inj ((congrArg RawTuple.price heq).trans hbar))
          · simp [rawText_eq, hbar, coalesce, String.append_assoc]
    · rcases twin_or_bar htradeId with ⟨twin, hne, hsame⟩ | ⟨before, after, hbar⟩
      · exact ⟨{ r with tradeId := twin }, fun heq => hne (congrArg RawTuple.tradeId heq), by
          simp only [rawText_eq, hsame]⟩
      · refine ⟨{ r with venue := some (coalesce r.venue "" ++ "|" ++ before), tradeId := some after }, fun heq => ?_, ?_⟩
        · exact ne_bar_append before after (Option.some.inj ((congrArg RawTuple.tradeId heq).trans hbar))
        · simp [rawText_eq, hbar, coalesce, String.append_assoc]
  · rcases twin_or_bar hvenue with ⟨twin, hne, hsame⟩ | ⟨before, after, hbar⟩
    · exact ⟨{ r with venue := twin }, fun heq => hne (congrArg RawTuple.venue heq), by simp only [rawText_eq, hsame]⟩
    · refine ⟨{ r with venue := some before, tradeId := some (after ++ "|" ++ coalesce r.tradeId "") }, fun heq => ?_, ?_⟩
      · exact ne_append_bar before after (Option.some.inj ((congrArg RawTuple.venue heq).trans hbar))
      · simp [rawText_eq, hbar, coalesce, String.append_assoc]

/-! ## Keys -/

def RawTuple.toRow (t : RawTuple) : BronzeRow :=
  { venue := t.venue, venueSymbol := none, instrumentId := none, tradeId := t.tradeId, eventTsUs := t.eventTsUs
    ingestTsUs := none, price := t.price, size := t.size, side := none, sequence := none, isBackfill := none
    source := none, ingestDate := 0 }

variable {hexMd5 : String → String}

theorem rowKey_eq_iff (hmd5 : Function.Injective hexMd5) (now now' : Int) (r s : BronzeRow) :
    (quarantineOf hexMd5 now r).rowKey = (quarantineOf hexMd5 now' s).rowKey ↔
      pieces '|' (rawParts r.raw) = pieces '|' (rawParts s.raw) :=
  hmd5.eq_iff.trans (rawText_eq_iff r.raw s.raw)

/-- **Two keys are told apart with their tuples exactly when** the tuples are one or their columns have different pieces;
a row is told from all others exactly when its text columns are there, not empty and without a bar. -/
theorem rowKey_identifies_iff (hmd5 : Function.Injective hexMd5) (now now' : Int) :
    (∀ r s : BronzeRow,
      ((quarantineOf hexMd5 now r).rowKey = (quarantineOf hexMd5 now' s).rowKey ↔ r.raw = s.raw) ↔
        r.raw = s.raw ∨ pieces '|' (rawParts r.raw) ≠ pieces '|' (rawParts s.raw)) ∧
    (∀ r : BronzeRow,
      (∀ s : BronzeRow, (quarantineOf hexMd5 now r).rowKey = (quarantineOf hexMd5 now' s).rowKey ↔ r.raw = s.raw) ↔
        r.raw.Plain) := by
  constructor
  · intro r s
    rw [rowKey_eq_iff hmd5]
    by_cases hraw : r.raw = s.raw
    · simp [hraw]
    · simp [hraw]
  · intro r
    constructor
    · intro hidentifies
      apply Classical.byContradiction
      intro hplain
      obtain ⟨t, hne, htext⟩ := exists_same_text hplain
      have hkey := (rowKey_eq_iff hmd5 now now' r t.toRow).2 ((rawText_eq_iff _ _).1 htext.symm)
      exact hne ((hidentifies t.toRow).1 hkey).symm
    · intro hplain s
      rw [rowKey_eq_iff hmd5, ← rawText_eq_iff]
      exact ⟨eq_of_plain hplain, fun hraw => by rw [hraw]⟩

/-- A row with its four texts, and the same row without a trade id. -/
theorem rowKey_identifies_iff_unpriced :
    (quarantineOf id 0 (unpriced "0")).rowKey ≠ (quarantineOf id 0 { unpriced "0" with tradeId := none }).rowKey := by
  have hplain : (unpriced "0").raw.Plain :=
    ⟨⟨"binance", rfl, by decide, by decide⟩, ⟨"1", rfl, by decide, by decide⟩, ⟨"0", rfl, by decide, by decide⟩,
      ⟨"0.25", rfl, by decide, by decide⟩⟩
  intro hkey
  have hraw := (((rowKey_identifies_iff Function.injective_id 0 0).2 (unpriced "0")).2 hplain _).1 hkey
  exact absurd hraw (by decide)

/-- A row without a price, and a row with an empty one. -/
theorem null_shares_rowKey : ¬ (∀ (hexMd5 : String → String), Function.Injective hexMd5 → ∀ (now : Int) (r s : BronzeRow),
    (quarantineOf hexMd5 now r).rowKey = (quarantineOf hexMd5 now s).rowKey ↔ r.raw = s.raw) := by
  intro h
  have hraw := (h id Function.injective_id 0 { unpriced "" with price := none } (unpriced "")).1 (by decide +kernel)
  exact absurd hraw (by decide)

end Awsnative
