/-!
# Text — `str.strip`, `str.split`, `str.splitlines` and `int` on a text's characters

`int` allows blanks around the number and single underscores between its digits, which may be of any script.  How many
digits it takes is a setting of the interpreter, and not bounded here.  A number that was printed is read back
(`int_toString`), and blanks that a strip takes away are none that `int` minds (`int_strip`).
-/
namespace Python

/-- `str.isspace` of one character. -/
def isSpace (c : Char) : Bool :=
  let n := c.toNat
  (9 ≤ n && n ≤ 13) || (28 ≤ n && n ≤ 32) || n == 0x85 || n == 0xa0 || n == 0x1680 || (0x2000 ≤ n && n ≤ 0x200a) ||
    n == 0x2028 || n == 0x2029 || n == 0x202f || n == 0x205f || n == 0x3000

/-- A text without the blanks at its ends. -/
def stripBy (blank : Char → Bool) (cs : List Char) : List Char := ((cs.dropWhile blank).reverse.dropWhile blank).reverse

def strip (cs : List Char) : List Char := stripBy isSpace cs

/-- Where the zero of each script stands; its other digits follow. -/
def decimalZeros : List Nat :=
  [0x30, 0x660, 0x6f0, 0x7c0, 0x966, 0x9e6, 0xa66, 0xae6, 0xb66, 0xbe6, 0xc66, 0xce6, 0xd66, 0xde6, 0xe50, 0xed0, 0xf20,
    0x1040, 0x1090, 0x17e0, 0x1810, 0x1946, 0x19d0, 0x1a80, 0x1a90, 0x1b50, 0x1bb0, 0x1c40, 0x1c50, 0xa620, 0xa8d0, 0xa900,
    0xa9d0, 0xa9f0, 0xaa50, 0xabf0, 0xff10, 0x104a0, 0x10d30, 0x11066, 0x110f0, 0x11136, 0x111d0, 0x112f0, 0x11450, 0x114d0,
    0x11650, 0x116c0, 0x11730, 0x118e0, 0x11950, 0x11c50, 0x11d50, 0x11da0, 0x11f50, 0x16a60, 0x16ac0, 0x16b50, 0x1d7ce,
    0x1d7d8, 0x1d7e2, 0x1d7ec, 0x1d7f6, 0x1e140, 0x1e2f0, 0x1e4f0, 0x1e950, 0x1fbf0]

/-- `unicodedata.decimal`. -/
def decimal (c : Char) : Option Nat :=
  (decimalZeros.find? (fun first => first ≤ c.toNat && c.toNat < first + 10)).map (fun first => c.toNat - first)

/-- The character that `int` reads for it: a digit for a digit, a blank for a blank; beyond ASCII nothing else. -/
def toAscii (c : Char) : Char :=
  if c.toNat < 127 then c
  else if isSpace c then ' '
  else match decimal c with
    | some d => Nat.digitChar d
    | none   => '?'

/-- The blanks that `int` passes over, which are not all that are stripped. -/
def isAsciiSpace (c : Char) : Bool := (9 ≤ c.toNat && c.toNat ≤ 13) || c.toNat == 32

def digits (ds : List Char) : Option Nat :=
  let groups := ds.splitOn '_'
  if groups.all (fun g => !g.isEmpty && g.all Char.isDigit) then some (Nat.ofDigitChars 10 groups.flatten 0) else none

/-- The text of a number as `int` reads it. -/
def numeral (cs : List Char) : List Char := stripBy isAsciiSpace (cs.map toAscii)

/-- `int(text)`; `none` where it raises. -/
def int (cs : List Char) : Option Int :=
  match numeral cs with
  | '-' :: ds => (digits ds).map (fun n : Nat => -(n : Int))
  | '+' :: ds => (digits ds).map Int.ofNat
  | ds        => (digits ds).map Int.ofNat

/-- Whether `int(text, 16)` reads a number: a sign and a `0x` may come first. -/
def isHexadecimal (cs : List Char) : Bool :=
  let unsigned := match numeral cs with
    | '-' :: ds => ds
    | '+' :: ds => ds
    | ds        => ds
  let groups := (match unsigned with
    | '0' :: 'x' :: '_' :: ds => ds
    | '0' :: 'X' :: '_' :: ds => ds
    | '0' :: 'x' :: ds        => ds
    | '0' :: 'X' :: ds        => ds
    | ds                      => ds).splitOn '_'
  groups.all (fun g => !g.isEmpty &&
    g.all (fun c => c.isDigit || (97 ≤ c.toNat && c.toNat ≤ 102) || (65 ≤ c.toNat && c.toNat ≤ 70)))

/-- `text.split()`: what stands between the blanks. -/
def split (cs : List Char) : List (List Char) := (cs.splitOnP isSpace).filter (fun w => !w.isEmpty)

def isLineBreak (c : Char) : Bool :=
  let n := c.toNat
  (10 ≤ n && n ≤ 13) || (28 ≤ n && n ≤ 30) || n == 0x85 || n == 0x2028 || n == 0x2029

/-- The lines of a text whose current line has begun with `line`, reversed. -/
def linesFrom (line : List Char) : List Char → List (List Char)
  | []                => if line.isEmpty then [] else [line.reverse]
  | '\r' :: '\n' :: cs => line.reverse :: linesFrom [] cs
  | c :: cs           => if isLineBreak c then line.reverse :: linesFrom [] cs else linesFrom (c :: line) cs

/-- `text.splitlines()`. -/
def splitlines (cs : List Char) : List (List Char) := linesFrom [] cs

theorem dropWhile_eq_self {α : Type} {p : α → Bool} {xs : List α} (h : ∀ x ∈ xs, p x = false) : xs.dropWhile p = xs := by
  cases xs with
  | nil => rfl
  | cons x xs =>
    have hx := h x List.mem_cons_self
    rw [List.dropWhile_cons, hx]
    rfl

section StripBy

variable {blank : Char → Bool}

theorem stripBy_eq_self {cs : List Char} (h : ∀ c ∈ cs, blank c = false) : stripBy blank cs = cs := by
  unfold stripBy
  rw [dropWhile_eq_self h, dropWhile_eq_self (fun c hc => h c (List.mem_reverse.1 hc)), List.reverse_reverse]

/-- A text whose ends are not blank is its own strip. -/
theorem stripBy_of_ends {c d : Char} {cs : List Char} (hc : blank c = false) (hd : blank d = false) :
    stripBy blank (c :: (cs ++ [d])) = c :: (cs ++ [d]) := by
  unfold stripBy
  rw [List.dropWhile_cons, hc]
  simp [hd]

/-- **What a strip takes away is blank.** -/
theorem stripBy_split (blank : Char → Bool) (cs : List Char) : ∃ before after, cs = before ++ stripBy blank cs ++ after ∧
    (∀ c ∈ before, blank c = true) ∧ ∀ c ∈ after, blank c = true := by
  have hfront : cs.takeWhile blank ++ cs.dropWhile blank = cs := List.takeWhile_append_dropWhile
  have hback : (cs.dropWhile blank).reverse.takeWhile blank ++ (cs.dropWhile blank).reverse.dropWhile blank =
      (cs.dropWhile blank).reverse := List.takeWhile_append_dropWhile
  refine ⟨cs.takeWhile blank, (((cs.dropWhile blank).reverse).takeWhile blank).reverse, ?_,
    List.all_eq_true.1 List.all_takeWhile,
    fun c hc => List.all_eq_true.1 List.all_takeWhile c (List.mem_reverse.1 hc)⟩
  have hrest : cs.dropWhile blank = stripBy blank cs ++ (((cs.dropWhile blank).reverse).takeWhile blank).reverse := by
    unfold stripBy
    rw [← List.reverse_append, hback, List.reverse_reverse]
  rw [List.append_assoc, ← hrest, hfront]

theorem dropWhile_append_blank (cs : List Char) {after : List Char} (h : ∀ c ∈ after, blank c = true) :
    (cs ++ after).dropWhile blank = [] ∧ cs.dropWhile blank = [] ∨
      (cs ++ after).dropWhile blank = cs.dropWhile blank ++ after := by
  have hnil : after.dropWhile blank = [] := by
    rw [← List.append_nil after, List.dropWhile_append_of_pos h]
    rfl
  rw [List.dropWhile_append]
  cases hcs : cs.dropWhile blank with
  | nil => exact Or.inl ⟨hnil, rfl⟩
  | cons c rest => exact Or.inr rfl

theorem stripBy_append {before cs after : List Char} (hbefore : ∀ c ∈ before, blank c = true)
    (hafter : ∀ c ∈ after, blank c = true) : stripBy blank (before ++ cs ++ after) = stripBy blank cs := by
  unfold stripBy
  rw [List.append_assoc, List.dropWhile_append_of_pos hbefore]
  rcases dropWhile_append_blank cs hafter with ⟨happend, hcs⟩ | happend
  · rw [happend, hcs]
  · rw [happend, List.reverse_append,
      List.dropWhile_append_of_pos (fun c hc => hafter c (List.mem_reverse.1 hc))]

end StripBy

theorem isSpace_of_isDigit {c : Char} (h : c.isDigit = true) : isSpace c = false := by
  simp only [Char.isDigit, Bool.and_eq_true, decide_eq_true_eq] at h
  have hlo : 48 ≤ c.toNat := h.1
  have hhi : c.toNat ≤ 57 := h.2
  unfold isSpace
  simp
  omega

theorem plain_of_isDigit {c : Char} (h : c.isDigit = true) : toAscii c = c ∧ isAsciiSpace c = false := by
  simp only [Char.isDigit, Bool.and_eq_true, decide_eq_true_eq] at h
  have hlo : 48 ≤ c.toNat := h.1
  have hhi : c.toNat ≤ 57 := h.2
  unfold toAscii isAsciiSpace
  refine ⟨if_pos (by omega), ?_⟩
  simp
  omega

theorem digits_toDigits (n : Nat) : digits (Nat.toDigits 10 n) = some n := by
  have hsplit : (Nat.toDigits 10 n).splitOn '_' = [Nat.toDigits 10 n] :=
    List.splitOn_eq_singleton Nat.underscore_not_in_toDigits
  have hall : (Nat.toDigits 10 n).all Char.isDigit = true := by
    rw [List.all_eq_true]
    exact fun c hc => Nat.isDigit_of_mem_toDigits (by decide) (by decide) hc
  have hne : (Nat.toDigits 10 n).isEmpty = false := by
    rw [List.isEmpty_eq_false_iff]
    exact Nat.toDigits_ne_nil
  unfold digits
  simp [hsplit, hall, hne, Nat.ofDigitChars_ten_toDigits]

theorem toList_toString (n : Int) :
    (toString n).toList = if 0 ≤ n then Nat.toDigits 10 n.toNat else '-' :: Nat.toDigits 10 (-n).toNat := by
  rw [Int.toString_eq_repr, Int.repr_eq_if]
  split
  · exact Nat.toList_repr
  · rw [String.toList_append, Nat.toList_repr]
    rfl

/-- What a number is printed with. -/
theorem mem_toString {n : Int} {c : Char} (h : c ∈ (toString n).toList) : c = '-' ∨ c.isDigit = true := by
  have hdigit : ∀ m : Nat, c ∈ Nat.toDigits 10 m → c.isDigit = true := fun m hm =>
    Nat.isDigit_of_mem_toDigits (by decide) (by decide) hm
  rw [toList_toString] at h
  split at h
  · exact Or.inr (hdigit _ h)
  · rcases List.mem_cons.1 h with rfl | h
    · exact Or.inl rfl
    · exact Or.inr (hdigit _ h)

/-- **A printed number is read back.** -/
theorem int_toString (n : Int) : int (toString n).toList = some n := by
  have hplain : ∀ c ∈ (toString n).toList, toAscii c = c ∧ isAsciiSpace c = false := by
    intro c hc
    rcases mem_toString hc with rfl | hdigit
    · decide
    · exact plain_of_isDigit hdigit
  have hnumeral : numeral (toString n).toList = (toString n).toList := by
    unfold numeral
    rw [List.map_congr_left (fun c hc => (hplain c hc).1), List.map_id', stripBy_eq_self (fun c hc => (hplain c hc).2)]
  unfold int
  rw [hnumeral, toList_toString]
  by_cases hn : 0 ≤ n
  · rw [if_pos hn]
    have hdigits := digits_toDigits n.toNat
    cases hds : Nat.toDigits 10 n.toNat with
    | nil => exact absurd hds Nat.toDigits_ne_nil
    | cons d ds =>
      have hd : d.isDigit = true := Nat.isDigit_of_mem_toDigits (by decide) (by decide)
        (show d ∈ Nat.toDigits 10 n.toNat by rw [hds]; exact List.mem_cons_self)
      rw [hds] at hdigits
      have hval : Int.ofNat n.toNat = n := Int.toNat_of_nonneg hn
      split
      · rename_i hcons
        rw [(List.cons.inj hcons).1] at hd
        exact absurd hd (by decide)
      · rename_i hcons
        rw [(List.cons.inj hcons).1] at hd
        exact absurd hd (by decide)
      · rw [hdigits, Option.map_some, hval]
  · rw [if_neg hn]
    show (digits (Nat.toDigits 10 (-n).toNat)).map (fun m : Nat => -(m : Int)) = some n
    rw [digits_toDigits, Option.map_some, Int.toNat_of_nonneg (by omega), Int.neg_neg]

/-! ## Blanks and lines -/

theorem strip_split (cs : List Char) : ∃ before after, cs = before ++ strip cs ++ after ∧
    (∀ c ∈ before, isSpace c = true) ∧ ∀ c ∈ after, isSpace c = true := stripBy_split isSpace cs

theorem strip_append_left {before cs : List Char} (h : ∀ c ∈ before, isSpace c = true) : strip (before ++ cs) = strip cs := by
  have hnil : ∀ c ∈ ([] : List Char), isSpace c = true := fun c hc => absurd hc List.not_mem_nil
  have hstrip := @stripBy_append isSpace before cs [] h hnil
  rw [List.append_nil] at hstrip
  exact hstrip

/-- A blank that is stripped is one that `int` passes over, or a control character that it refuses. -/
theorem toAscii_isSpace {c : Char} (h : isSpace c = true) :
    isAsciiSpace (toAscii c) = true ∨ 28 ≤ (toAscii c).toNat ∧ (toAscii c).toNat ≤ 31 := by
  unfold toAscii
  split
  · rename_i hlow
    unfold isSpace at h
    unfold isAsciiSpace
    simp at h ⊢
    omega
  · exact Or.inl (by decide)

theorem mem_intercalate {α : Type} {x sep : α} : ∀ {ls : List (List α)}, x ∈ [sep].intercalate ls → x = sep ∨ ∃ l ∈ ls, x ∈ l
  | [], h => by cases h
  | [l], h => by
    rw [List.intercalate_singleton] at h
    exact Or.inr ⟨l, List.mem_cons_self, h⟩
  | l :: l' :: ls, h => by
    rw [List.intercalate_cons_cons] at h
    rcases List.mem_append.1 h with h | h
    · rcases List.mem_append.1 h with h | h
      · exact Or.inr ⟨l, List.mem_cons_self, h⟩
      · exact Or.inl (List.mem_singleton.1 h)
    · exact (mem_intercalate h).imp_right (fun ⟨m, hm, hx⟩ => ⟨m, List.mem_cons_of_mem _ hm, hx⟩)

/-- What a number is written with. -/
def isNumeral (c : Char) : Bool := c == '-' || c == '+' || c == '_' || c.isDigit

theorem isNumeral_of_digits {ds : List Char} {n : Nat} (h : digits ds = some n) : ∀ c ∈ ds, isNumeral c = true := by
  unfold digits at h
  simp only at h
  split at h
  · rename_i hall
    rw [List.all_eq_true] at hall
    have hparts : ∀ c ∈ ['_'].intercalate (ds.splitOn '_'), isNumeral c = true := by
      intro c hc
      rcases mem_intercalate hc with rfl | ⟨g, hg, hc⟩
      · decide
      · have hdigits := hall g hg
        rw [Bool.and_eq_true, List.all_eq_true] at hdigits
        unfold isNumeral
        rw [hdigits.2 c hc, Bool.or_true]
    rw [List.intercalate_splitOn '_'] at hparts
    exact hparts
  · cases h

theorem isNumeral_of_int {cs : List Char} {n : Int} (h : int cs = some n) : ∀ c ∈ numeral cs, isNumeral c = true := by
  unfold int at h
  intro c hc
  split at h
  · rename_i ds hds
    obtain ⟨m, hm, -⟩ := Option.map_eq_some_iff.1 h
    rw [hds] at hc
    rcases List.mem_cons.1 hc with rfl | hc
    · decide
    · exact isNumeral_of_digits hm c hc
  · rename_i ds hds
    obtain ⟨m, hm, -⟩ := Option.map_eq_some_iff.1 h
    rw [hds] at hc
    rcases List.mem_cons.1 hc with rfl | hc
    · decide
    · exact isNumeral_of_digits hm c hc
  · obtain ⟨m, hm, -⟩ := Option.map_eq_some_iff.1 h
    exact isNumeral_of_digits hm c hc

/-- **`int` does not mind what a strip takes away.** -/
theorem int_strip {cs : List Char} {n : Int} (h : int cs = some n) : int (strip cs) = some n := by
  obtain ⟨before, after, hcs, hbefore, hafter⟩ := strip_split cs
  obtain ⟨front, back, hread, hfront, hback⟩ := stripBy_split isAsciiSpace (cs.map toAscii)
  -- a character that was stripped is not part of the numeral, so it was passed over
  have hpassed : ∀ c ∈ cs, isSpace c = true → isAsciiSpace (toAscii c) = true := by
    intro c hc hspace
    rcases toAscii_isSpace hspace with hpass | hcontrol
    · exact hpass
    · have hmem : toAscii c ∈ front ++ numeral cs ++ back := hread ▸ List.mem_map_of_mem hc
      rcases List.mem_append.1 hmem with hmem | hmem
      · rcases List.mem_append.1 hmem with hmem | hmem
        · exact hfront _ hmem
        · have hnumeral := isNumeral_of_int h _ hmem
          unfold isNumeral Char.isDigit at hnumeral
          simp only [Bool.or_eq_true, beq_iff_eq, Bool.and_eq_true, decide_eq_true_eq] at hnumeral
          rcases hnumeral with ((heq | heq) | heq) | ⟨hlow, -⟩
          · exact absurd hcontrol (by rw [heq]; decide)
          · exact absurd hcontrol (by rw [heq]; decide)
          · exact absurd hcontrol (by rw [heq]; decide)
          · have hlow : 48 ≤ (toAscii c).toNat := hlow
            omega
      · exact hback _ hmem
  have hsame : numeral (strip cs) = numeral cs := by
    have hmap : cs.map toAscii = before.map toAscii ++ (strip cs).map toAscii ++ after.map toAscii := by
      rw [← List.map_append, ← List.map_append]
      exact congrArg (List.map toAscii) hcs
    unfold numeral
    rw [hmap, stripBy_append]
    · intro x hx
      obtain ⟨c, hc, rfl⟩ := List.mem_map.1 hx
      exact hpassed c (by rw [hcs]; exact List.mem_append_left _ (List.mem_append_left _ hc)) (hbefore c hc)
    · intro x hx
      obtain ⟨c, hc, rfl⟩ := List.mem_map.1 hx
      exact hpassed c (by rw [hcs]; exact List.mem_append_right _ hc) (hafter c hc)
  unfold int
  rw [hsame]
  exact h

/-- **A line holds no newline.** -/
theorem not_mem_linesFrom {line cs : List Char} (hline : '\n' ∉ line) : ∀ l ∈ linesFrom line cs, '\n' ∉ l := by
  have hreverse : ∀ {l : List Char}, '\n' ∉ l → '\n' ∉ l.reverse := fun h hmem => h (List.mem_reverse.1 hmem)
  induction line, cs using linesFrom.induct with
  | case1 line hempty =>
    rw [linesFrom, if_pos hempty]
    exact fun l hl => absurd hl List.not_mem_nil
  | case2 line hne =>
    rw [linesFrom, if_neg hne]
    intro l hl
    rw [List.mem_singleton.1 hl]
    exact hreverse hline
  | case3 line cs ih =>
    rw [linesFrom]
    intro l hl
    rcases List.mem_cons.1 hl with rfl | hl
    · exact hreverse hline
    · exact ih List.not_mem_nil l hl
  | case4 line c cs hnot hbreak ih =>
    rw [linesFrom, if_pos hbreak]
    · intro l hl
      rcases List.mem_cons.1 hl with rfl | hl
      · exact hreverse hline
      · exact ih List.not_mem_nil l hl
    · exact hnot
  | case5 line c cs hnot hbreak ih =>
    rw [linesFrom, if_neg hbreak]
    · refine ih (fun hmem => ?_)
      rcases List.mem_cons.1 hmem with rfl | hmem
      · exact hbreak (by decide)
      · exact hline hmem
    · exact hnot

theorem not_mem_splitlines {cs : List Char} : ∀ l ∈ splitlines cs, '\n' ∉ l := not_mem_linesFrom List.not_mem_nil

end Python
