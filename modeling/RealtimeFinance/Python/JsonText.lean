import RealtimeFinance.Python.JsonTree
/-!
# JsonText — `json.dumps` and `json.loads` on a text's characters

What is dumped is read back (`loads_dumps`), and reading stops where the document ends (`scan_dumps`), for every value
without floats.  A float's value is not read here.  A lone surrogate, which a Python text can hold, has no character.
-/
namespace Python

/-! ## Writing -/

/-- The escapes of one letter. -/
def shortEscape (c : Char) : Option Char :=
  match c.toNat with
  | 34 => some '"'
  | 92 => some '\\'
  | 10 => some 'n'
  | 13 => some 'r'
  | 9  => some 't'
  | 12 => some 'f'
  | 8  => some 'b'
  | _  => none

def hexDigits (n : Nat) : List Char :=
  [(n / 4096 % 16).digitChar, (n / 256 % 16).digitChar, (n / 16 % 16).digitChar, (n % 16).digitChar]

def escapeUnit (n : Nat) : List Char := '\\' :: 'u' :: hexDigits n

/-- A character of a text under `ensure_ascii`. -/
def escapeChar (c : Char) : List Char :=
  match shortEscape c with
  | some e => ['\\', e]
  | none   =>
    if 32 ≤ c.toNat ∧ c.toNat ≤ 126 then [c]
    else if c.toNat < 65536 then escapeUnit c.toNat
    else escapeUnit (55296 + (c.toNat - 65536) / 1024) ++ escapeUnit (56320 + (c.toNat - 65536) % 1024)

def quoted (s : String) : List Char := '"' :: (s.toList.flatMap escapeChar ++ ['"'])

section Dumps

-- what stands after a separator: nothing where the output is compact
variable (gap : List Char)

mutual

/-- `json.dumps`; a dict has each of its keys once. -/
def dumps : JsonTree → List Char
  | .null            => "null".toList
  | .bool b          => (if b then "true" else "false").toList
  | .int n           => (toString n).toList
  | .float printed _ => printed.toList
  | .str s           => quoted s
  | .list items      => '[' :: (dumpsItems items ++ [']'])
  | .object fields   => '\x7b' :: (dumpsFields fields ++ ['\x7d'])

def dumpsItems : List JsonTree → List Char
  | []                   => []
  | [item]               => dumps item
  | item :: next :: rest => dumps item ++ ',' :: (gap ++ dumpsItems (next :: rest))

def dumpsFields : List (String × JsonTree) → List Char
  | []                          => []
  | [(key, item)]               => quoted key ++ ':' :: (gap ++ dumps item)
  | (key, item) :: next :: rest => quoted key ++ ':' :: (gap ++ dumps item) ++ ',' :: (gap ++ dumpsFields (next :: rest))

end

end Dumps

/-! ## Reading -/

def isJsonBlank (c : Char) : Bool := c == ' ' || c == '\t' || c == '\n' || c == '\r'

def skipBlanks (cs : List Char) : List Char := cs.dropWhile isJsonBlank

def hexValue (c : Char) : Option Nat :=
  if 48 ≤ c.toNat ∧ c.toNat ≤ 57 then some (c.toNat - 48)
  else if 97 ≤ c.toNat ∧ c.toNat ≤ 102 then some (c.toNat - 87)
  else if 65 ≤ c.toNat ∧ c.toNat ≤ 70 then some (c.toNat - 55)
  else none

/-- `_decode_uXXXX`. -/
def decodeUnit (a b c d : Char) : Option Nat :=
  (hexValue a).bind (fun a => (hexValue b).bind (fun b => (hexValue c).bind (fun c => (hexValue d).map (fun d =>
    a * 4096 + b * 256 + c * 16 + d))))

/-- `BACKSLASH`. -/
def backslash (c : Char) : Option Char :=
  match c with
  | '"'  => some '"'
  | '\\' => some '\\'
  | '/'  => some '/'
  | 'b'  => some (Char.ofNat 8)
  | 'f'  => some (Char.ofNat 12)
  | 'n'  => some '\n'
  | 'r'  => some '\r'
  | 't'  => some '\t'
  | _    => none

/-- The second half of a surrogate pair. -/
def scanLow (high : Nat) : List Char → Option (Char × List Char)
  | '\\' :: 'u' :: a :: b :: c :: d :: rest =>
    (decodeUnit a b c d).bind (fun low =>
      if 0xdc00 ≤ low ∧ low ≤ 0xdfff then
        some (Char.ofNat (0x10000 + (high - 0xd800) * 1024 + (low - 0xdc00)), rest)
      else none)
  | _ => none

/-- What stands after a backslash. -/
def scanEscape : List Char → Option (Char × List Char)
  | 'u' :: a :: b :: c :: d :: rest =>
    (decodeUnit a b c d).bind (fun unit =>
      if 0xd800 ≤ unit ∧ unit ≤ 0xdbff then scanLow unit rest
      else if 0xdc00 ≤ unit ∧ unit ≤ 0xdfff then none
      else some (Char.ofNat unit, rest))
  | c :: rest => (backslash c).map (fun e => (e, rest))
  | []        => none

/-- `scanstring` after the opening quote, with what follows the closing one. -/
def scanString : Nat → List Char → Option (List Char × List Char)
  | 0, _               => none
  | _ + 1, []          => none
  | fuel + 1, c :: rest =>
    if c = '"' then some ([], rest)
    else if c = '\\' then
      (scanEscape rest).bind (fun e => (scanString fuel e.2).map (fun s => (e.1 :: s.1, s.2)))
    else if c.toNat < 32 then none
    else (scanString fuel rest).map (fun s => (c :: s.1, s.2))

def startsWithDigit : List Char → Bool
  | c :: _ => c.isDigit
  | []     => false

/-- Whether a number goes on with a fraction or an exponent. -/
def floatFollows : List Char → Bool
  | '.' :: rest        => startsWithDigit rest
  | 'e' :: '+' :: rest => startsWithDigit rest
  | 'e' :: '-' :: rest => startsWithDigit rest
  | 'e' :: rest        => startsWithDigit rest
  | 'E' :: '+' :: rest => startsWithDigit rest
  | 'E' :: '-' :: rest => startsWithDigit rest
  | 'E' :: rest        => startsWithDigit rest
  | _                  => false

/-- The digits of a number without its sign: a zero stands alone. -/
def scanDigits : List Char → Option (Nat × List Char)
  | '0' :: rest => some (0, rest)
  | cs          =>
    if startsWithDigit cs then some (Nat.ofDigitChars 10 (cs.takeWhile Char.isDigit) 0, cs.dropWhile Char.isDigit) else none

def scanInteger (sign : Int) (cs : List Char) : Option (JsonTree × List Char) :=
  (scanDigits cs).bind (fun n => if floatFollows n.2 then none else some (.int (sign * n.1), n.2))

def scanNumber : List Char → Option (JsonTree × List Char)
  | '-' :: cs => scanInteger (-1) cs
  | cs        => scanInteger 1 cs

mutual

/-- `scan_once`: a value, and what follows it. -/
def scanValue : Nat → List Char → Option (JsonTree × List Char)
  | 0, _         => none
  | fuel + 1, cs =>
    match cs with
    | '"' :: rest =>
      (scanString (rest.length + 1) rest).map (fun s => (.str (String.ofList s.1), s.2))
    | '\x7b' :: rest =>
      match skipBlanks rest with
      | '\x7d' :: rest => some (.object [], rest)
      | rest           => (scanFields fuel rest).map (fun f => (.object f.1, f.2))
    | '[' :: rest =>
      match skipBlanks rest with
      | ']' :: rest => some (.list [], rest)
      | rest        => (scanItems fuel rest).map (fun f => (.list f.1, f.2))
    | 'n' :: 'u' :: 'l' :: 'l' :: rest        => some (.null, rest)
    | 't' :: 'r' :: 'u' :: 'e' :: rest        => some (.bool true, rest)
    | 'f' :: 'a' :: 'l' :: 's' :: 'e' :: rest => some (.bool false, rest)
    | cs                                      => scanNumber cs

/-- `JSONArray` from an item on. -/
def scanItems : Nat → List Char → Option (List JsonTree × List Char)
  | 0, _         => none
  | fuel + 1, cs =>
    (scanValue fuel cs).bind (fun item =>
      match skipBlanks item.2 with
      | ']' :: rest => some ([item.1], rest)
      | ',' :: rest => (scanItems fuel (skipBlanks rest)).map (fun items => (item.1 :: items.1, items.2))
      | _           => none)

/-- `JSONObject` from a key on. -/
def scanFields : Nat → List Char → Option (List (String × JsonTree) × List Char)
  | 0, _                => none
  | fuel + 1, '"' :: cs =>
    (scanString (cs.length + 1) cs).bind (fun key =>
      match skipBlanks key.2 with
      | ':' :: rest =>
        (scanValue fuel (skipBlanks rest)).bind (fun item =>
          match skipBlanks item.2 with
          | '\x7d' :: rest => some ([(String.ofList key.1, item.1)], rest)
          | ',' :: rest    => (scanFields fuel (skipBlanks rest)).map (fun fields =>
              ((String.ofList key.1, item.1) :: fields.1, fields.2))
          | _              => none)
      | _           => none)
  | _ + 1, _            => none

end

/-- `json.loads` of a text; each character is at the most two rounds of the scanners. -/
def loads (cs : List Char) : Option JsonTree :=
  (scanValue (2 * cs.length) (skipBlanks cs)).bind (fun v => if (skipBlanks v.2).isEmpty then some v.1 else none)

/-! ## Texts -/

section Texts

variable {n : Nat} {c : Char} {rest : List Char}

theorem hexValue_digitChar : ∀ d < 16, hexValue d.digitChar = some d := by decide

theorem decodeUnit_hexDigits (h : n < 65536) :
    decodeUnit (n / 4096 % 16).digitChar (n / 256 % 16).digitChar (n / 16 % 16).digitChar (n % 16).digitChar = some n := by
  have hlt : ∀ m, m % 16 < 16 := fun m => Nat.mod_lt m (by decide)
  simp only [decodeUnit, hexValue_digitChar _ (hlt _), Option.bind_some, Option.map_some, Option.some.injEq]
  omega

/-- A character is no half of a surrogate pair. -/
theorem toNat_not_surrogate (c : Char) : c.toNat < 0xd800 ∨ 0xdfff < c.toNat ∧ c.toNat < 0x110000 := c.valid

/-- Two units of a pair are read as one character. -/
theorem scanEscape_units {a b : Nat} (ha : a < 1024) (hb : b < 1024) :
    scanEscape ('u' :: (hexDigits (55296 + a) ++ escapeUnit (56320 + b) ++ rest)) =
      some (Char.ofNat (65536 + a * 1024 + b), rest) := by
  have hhigh := decodeUnit_hexDigits (n := 55296 + a) (by omega)
  have hlow := decodeUnit_hexDigits (n := 56320 + b) (by omega)
  have hunits : 55296 ≤ 55296 + a ∧ 55296 + a ≤ 56319 := by omega
  have hsecond : 56320 ≤ 56320 + b ∧ 56320 + b ≤ 57343 := by omega
  have hpair : scanLow (55296 + a) (escapeUnit (56320 + b) ++ rest) =
      some (Char.ofNat (65536 + a * 1024 + b), rest) := by
    simp only [escapeUnit, hexDigits, List.cons_append, List.nil_append, scanLow, hlow, Option.bind_some]
    rw [if_pos hsecond, Nat.add_sub_cancel_left, Nat.add_sub_cancel_left]
  rw [List.append_assoc]
  simp only [hexDigits, List.cons_append, List.nil_append, scanEscape, hhigh, Option.bind_some]
  rw [if_pos hunits, hpair]

/-- A character of two units is read from both. -/
theorem scanEscape_pair (h : 65536 ≤ c.toNat) :
    scanEscape ('u' :: (hexDigits (55296 + (c.toNat - 65536) / 1024) ++
      escapeUnit (56320 + (c.toNat - 65536) % 1024) ++ rest)) = some (c, rest) := by
  have hvalid := toNat_not_surrogate c
  have heq : 65536 + (c.toNat - 65536) / 1024 * 1024 + (c.toNat - 65536) % 1024 = c.toNat := by omega
  rw [scanEscape_units (by omega) (by omega), heq, Char.ofNat_toNat]

/-- A character of one unit. -/
theorem scanEscape_unit (h : c.toNat < 65536) :
    scanEscape ('u' :: (hexDigits c.toNat ++ rest)) = some (c, rest) := by
  have hvalid := toNat_not_surrogate c
  simp only [hexDigits, List.cons_append, List.nil_append, scanEscape, decodeUnit_hexDigits h, Option.bind_some]
  rw [if_neg (by omega), if_neg (by omega), Char.ofNat_toNat]

theorem eq_of_toNat {d : Char} (h : c.toNat = d.toNat) : c = d := by
  rw [← Char.ofNat_toNat c, h, Char.ofNat_toNat]

theorem scanEscape_short {e : Char} (h : shortEscape c = some e) : scanEscape (e :: rest) = some (c, rest) := by
  unfold shortEscape at h
  split at h
  all_goals cases h
  · rename_i hc; rw [eq_of_toNat (d := '"') hc]; rfl
  · rename_i hc; rw [eq_of_toNat (d := '\\') hc]; rfl
  · rename_i hc; rw [eq_of_toNat (d := '\n') hc]; rfl
  · rename_i hc; rw [eq_of_toNat (d := '\r') hc]; rfl
  · rename_i hc; rw [eq_of_toNat (d := '\t') hc]; rfl
  · rename_i hc; rw [eq_of_toNat (d := Char.ofNat 12) hc]; rfl
  · rename_i hc; rw [eq_of_toNat (d := Char.ofNat 8) hc]; rfl

theorem shortEscape_eq_none (h : shortEscape c = none) : c ≠ '"' ∧ c ≠ '\\' := by
  constructor
  · rintro rfl
    cases h
  · rintro rfl
    cases h

/-- **A character is read back from its escape.** -/
theorem scanString_escapeChar (fuel : Nat) (c : Char) (rest : List Char) :
    scanString (fuel + 1) (escapeChar c ++ rest) = (scanString fuel rest).map (fun s => (c :: s.1, s.2)) := by
  have hescape : ∀ {cs : List Char}, scanEscape cs = some (c, rest) →
      scanString (fuel + 1) ('\\' :: cs) = (scanString fuel rest).map (fun s => (c :: s.1, s.2)) := by
    intro cs hcs
    rw [scanString, if_neg (by decide), if_pos rfl, hcs, Option.bind_some]
  unfold escapeChar
  cases hshort : shortEscape c with
  | some e => exact hescape (scanEscape_short hshort)
  | none =>
    obtain ⟨hquote, hslash⟩ := shortEscape_eq_none hshort
    dsimp only
    split
    · rename_i hplain
      rw [List.singleton_append, scanString, if_neg hquote, if_neg hslash, if_neg (by omega)]
    · split
      · rename_i hunit
        exact hescape (scanEscape_unit hunit)
      · rename_i hpair
        rw [escapeUnit, List.cons_append, List.cons_append, List.cons_append, List.cons_append]
        exact hescape (scanEscape_pair (Nat.le_of_not_lt hpair))

/-- **A text is read back up to its closing quote.** -/
theorem scanString_quoted : ∀ (cs : List Char) (fuel : Nat) (rest : List Char), cs.length < fuel →
    scanString fuel (cs.flatMap escapeChar ++ '"' :: rest) = some (cs, rest)
  | [], fuel + 1, rest, _       => by rw [List.flatMap_nil, List.nil_append, scanString, if_pos rfl]
  | c :: cs, fuel + 1, rest, h => by
    rw [List.flatMap_cons, List.append_assoc, scanString_escapeChar,
      scanString_quoted cs fuel rest (Nat.lt_of_succ_lt_succ h)]
    rfl

theorem escapeChar_ne_nil (c : Char) : 1 ≤ (escapeChar c).length := by
  unfold escapeChar
  split
  · exact Nat.le_succ 1
  · split
    · exact Nat.le_refl 1
    · split <;> simp [escapeUnit]

theorem length_le_flatMap_escapeChar : ∀ cs : List Char, cs.length ≤ (cs.flatMap escapeChar).length
  | []      => Nat.le_refl 0
  | c :: cs => by
    have hrest := length_le_flatMap_escapeChar cs
    have hc := escapeChar_ne_nil c
    rw [List.flatMap_cons, List.length_append, List.length_cons]
    omega

theorem scanString_of_quoted (s : String) (rest : List Char) :
    scanString ((s.toList.flatMap escapeChar ++ '"' :: rest).length + 1) (s.toList.flatMap escapeChar ++ '"' :: rest) =
      some (s.toList, rest) := by
  refine scanString_quoted s.toList _ rest ?_
  have hlen := length_le_flatMap_escapeChar s.toList
  rw [List.length_append]
  omega

end Texts

/-! ## Numbers -/

/-- No number goes on here. -/
def Ends (rest : List Char) : Prop := startsWithDigit rest = false ∧ floatFollows rest = false

/-- Only the number zero is printed with a zero first. -/
theorem toDigits_head {n : Nat} {d : Char} {ds : List Char} (hn : n ≠ 0) (h : Nat.toDigits 10 n = d :: ds) : d ≠ '0' := by
  induction n using Nat.strongRecOn generalizing d ds with
  | _ n ih =>
    by_cases hlt : n < 10
    · rw [Nat.toDigits_of_lt_base hlt, List.cons.injEq] at h
      rw [← h.1]
      have hdigit : ∀ m < 10, m ≠ 0 → m.digitChar ≠ '0' := by decide
      exact hdigit n hlt hn
    · rw [Nat.toDigits_of_base_le (by decide) (Nat.le_of_not_lt hlt)] at h
      cases hds : Nat.toDigits 10 (n / 10) with
      | nil => exact absurd hds Nat.toDigits_ne_nil
      | cons e es =>
        rw [hds, List.cons_append, List.cons.injEq] at h
        rw [← h.1]
        exact ih (n / 10) (by omega) (by omega) hds

theorem takeWhile_digits {ds rest : List Char} (hds : ∀ c ∈ ds, c.isDigit = true) (hrest : startsWithDigit rest = false) :
    (ds ++ rest).takeWhile Char.isDigit = ds ∧ (ds ++ rest).dropWhile Char.isDigit = rest := by
  rw [List.takeWhile_append_of_pos hds, List.dropWhile_append_of_pos hds]
  cases rest with
  | nil => simp
  | cons c rest =>
    have hc : c.isDigit = false := hrest
    simp [hc]

theorem scanDigits_toDigits (n : Nat) {rest : List Char} (hrest : Ends rest) :
    scanDigits (Nat.toDigits 10 n ++ rest) = some (n, rest) := by
  have hdigits : ∀ c ∈ Nat.toDigits 10 n, c.isDigit = true := fun c hc =>
    Nat.isDigit_of_mem_toDigits (by decide) (by decide) hc
  cases hds : Nat.toDigits 10 n with
  | nil => exact absurd hds Nat.toDigits_ne_nil
  | cons d ds =>
    by_cases hn : n = 0
    · subst hn
      cases hds
      rfl
    · have hd : startsWithDigit (d :: ds ++ rest) = true := hdigits d (by rw [hds]; exact List.mem_cons_self)
      obtain ⟨htake, hdrop⟩ := takeWhile_digits hdigits hrest.1
      rw [hds] at htake hdrop
      have hscan : scanDigits (d :: ds ++ rest) = if startsWithDigit (d :: ds ++ rest) then
          some (Nat.ofDigitChars 10 ((d :: ds ++ rest).takeWhile Char.isDigit) 0, (d :: ds ++ rest).dropWhile Char.isDigit)
          else none := by
        rw [List.cons_append]
        unfold scanDigits
        split
        · rename_i heq
          cases heq
          exact absurd rfl (toDigits_head hn hds)
        · rfl
      rw [hscan, if_pos hd, htake, hdrop, ← hds, Nat.ofDigitChars_ten_toDigits]

/-- **A printed number is read back.** -/
theorem scanNumber_toString (n : Int) {rest : List Char} (hrest : Ends rest) :
    scanNumber ((toString n).toList ++ rest) = some (.int n, rest) := by
  have hinteger : ∀ (sign : Int) (m : Nat), scanInteger sign (Nat.toDigits 10 m ++ rest) = some (.int (sign * m), rest) := by
    intro sign m
    rw [scanInteger, scanDigits_toDigits m hrest, Option.bind_some, if_neg (by rw [hrest.2]; decide)]
  rw [toList_toString]
  by_cases hn : 0 ≤ n
  · rw [if_pos hn]
    have hscan : scanNumber (Nat.toDigits 10 n.toNat ++ rest) = scanInteger 1 (Nat.toDigits 10 n.toNat ++ rest) := by
      unfold scanNumber
      split
      · rename_i cs heq
        have hmem : '-' ∈ Nat.toDigits 10 n.toNat := by
          cases hds : Nat.toDigits 10 n.toNat with
          | nil => exact absurd hds Nat.toDigits_ne_nil
          | cons d ds =>
            rw [hds, List.cons_append, List.cons.injEq] at heq
            rw [heq.1]
            exact List.mem_cons_self
        exact absurd (Nat.isDigit_of_mem_toDigits (by decide) (by decide) hmem) (by decide)
      · rfl
    rw [hscan, hinteger, Int.one_mul, Int.toNat_of_nonneg hn]
  · rw [if_neg hn, List.cons_append, scanNumber, hinteger, Int.toNat_of_nonneg (by omega)]
    simp

/-! ## Values -/

mutual

/-- No float stands in it. -/
def JsonTree.isExact : JsonTree → Bool
  | .float _ _     => false
  | .list items    => areExact items
  | .object fields => fieldsExact fields
  | _              => true

def areExact : List JsonTree → Bool
  | []            => true
  | item :: items => item.isExact && areExact items

def fieldsExact : List (String × JsonTree) → Bool
  | []                => true
  | (_, item) :: rest => item.isExact && fieldsExact rest

end

mutual

/-- How many rounds of the scanners its text takes at the most. -/
def JsonTree.rounds : JsonTree → Nat
  | .null          => 1
  | .bool _        => 1
  | .int _         => 1
  | .float _ _     => 1
  | .str _         => 1
  | .list items    => 1 + itemsRounds items
  | .object fields => 1 + fieldsRounds fields

def itemsRounds : List JsonTree → Nat
  | []            => 0
  | item :: items => 1 + item.rounds + itemsRounds items

def fieldsRounds : List (String × JsonTree) → Nat
  | []                => 0
  | (_, item) :: rest => 1 + item.rounds + fieldsRounds rest

end

section Values

variable {gap : List Char}

theorem ends_cons {c : Char} (h : c.isDigit = false ∧ c ≠ '.' ∧ c ≠ 'e' ∧ c ≠ 'E') (rest : List Char) :
    Ends (c :: rest) := by
  refine ⟨h.1, ?_⟩
  unfold floatFollows
  split
  · rename_i heq; cases heq; exact absurd rfl h.2.1
  · rename_i heq; cases heq; exact absurd rfl h.2.2.1
  · rename_i heq; cases heq; exact absurd rfl h.2.2.1
  · rename_i heq; cases heq; exact absurd rfl h.2.2.1
  · rename_i heq; cases heq; exact absurd rfl h.2.2.2
  · rename_i heq; cases heq; exact absurd rfl h.2.2.2
  · rename_i heq; cases heq; exact absurd rfl h.2.2.2
  · rfl

theorem ends_nil : Ends [] := ⟨rfl, rfl⟩

theorem skipBlanks_cons {c : Char} (h : isJsonBlank c = false) (rest : List Char) : skipBlanks (c :: rest) = c :: rest := by
  rw [skipBlanks, List.dropWhile_cons, h]
  rfl

theorem skipBlanks_gap (hgap : ∀ c ∈ gap, isJsonBlank c = true) (cs : List Char) : skipBlanks (gap ++ cs) = skipBlanks cs :=
  List.dropWhile_append_of_pos hgap

/-- A number begins with a digit or a sign. -/
theorem toString_head (n : Int) : ∃ c cs, (toString n).toList = c :: cs ∧ (c = '-' ∨ c.isDigit = true) := by
  cases hcs : (toString n).toList with
  | nil =>
    rw [toList_toString] at hcs
    split at hcs
    · exact absurd hcs Nat.toDigits_ne_nil
    · cases hcs
  | cons c cs => exact ⟨c, cs, rfl, mem_toString (by rw [hcs]; exact List.mem_cons_self)⟩

theorem not_blank_of_number {c : Char} (h : c = '-' ∨ c.isDigit = true) : isJsonBlank c = false ∧ c ≠ ']' := by
  rcases h with rfl | h
  · decide
  · refine ⟨?_, fun heq => by rw [heq] at h; exact absurd h (by decide)⟩
    unfold isJsonBlank
    simp only [Bool.or_eq_false_iff, beq_eq_false_iff_ne]
    refine ⟨⟨⟨?_, ?_⟩, ?_⟩, ?_⟩ <;> (intro heq; rw [heq] at h; exact absurd h (by decide))

/-- A value begins with no blank and no bracket that ends a list. -/
theorem dumps_head {v : JsonTree} (hv : v.isExact = true) :
    ∃ c cs, dumps gap v = c :: cs ∧ isJsonBlank c = false ∧ c ≠ ']' := by
  cases v with
  | null => exact ⟨'n', _, rfl, by decide, by decide⟩
  | bool b =>
    cases b with
    | true => exact ⟨'t', _, rfl, by decide, by decide⟩
    | false => exact ⟨'f', _, rfl, by decide, by decide⟩
  | int n =>
    obtain ⟨c, cs, hcs, hc⟩ := toString_head n
    exact ⟨c, cs, hcs, not_blank_of_number hc⟩
  | float printed value => cases hv
  | str s => exact ⟨'"', _, rfl, by decide, by decide⟩
  | list items => exact ⟨'[', _, rfl, by decide, by decide⟩
  | object fields => exact ⟨'{', _, rfl, by decide, by decide⟩

theorem skipBlanks_dumps {v : JsonTree} (hv : v.isExact = true) (rest : List Char) :
    skipBlanks (dumps gap v ++ rest) = dumps gap v ++ rest := by
  obtain ⟨c, cs, hcs, hblank, -⟩ := @dumps_head gap v hv
  rw [hcs, List.cons_append, skipBlanks_cons hblank]

theorem scanValue_number {c : Char} (h : c = '-' ∨ c.isDigit = true) (fuel : Nat) (cs : List Char) :
    scanValue (fuel + 1) (c :: cs) = scanNumber (c :: cs) := by
  have hne : ∀ d : Char, d ≠ '-' → d.isDigit = false → c ≠ d := by
    rintro d hd hdigit rfl
    rcases h with h | h
    · exact hd h
    · rw [hdigit] at h
      cases h
  rw [scanValue]
  all_goals
    intro rest heq
    rw [List.cons.injEq] at heq
    exact hne _ (by decide) (by decide) heq.1

theorem dumpsItems_head (item : JsonTree) (items : List JsonTree) (h : item.isExact = true) :
    ∃ c cs, dumpsItems gap (item :: items) = c :: cs ∧ isJsonBlank c = false ∧ c ≠ ']' := by
  obtain ⟨c, cs, hcs, hc⟩ := @dumps_head gap item h
  cases items with
  | nil => exact ⟨c, cs, hcs, hc⟩
  | cons next items => exact ⟨c, _, by rw [dumpsItems, hcs, List.cons_append], hc⟩

theorem dumpsFields_head (field : String × JsonTree) (fields : List (String × JsonTree)) :
    ∃ cs, dumpsFields gap (field :: fields) = '"' :: cs := by
  obtain ⟨key, item⟩ := field
  cases fields with
  | nil => exact ⟨_, by rw [dumpsFields, quoted, List.cons_append]⟩
  | cons next fields => exact ⟨_, by rw [dumpsFields, quoted, List.cons_append, List.cons_append]⟩

theorem quoted_append (s : String) (cs : List Char) :
    quoted s ++ cs = '"' :: (s.toList.flatMap escapeChar ++ '"' :: cs) := by
  rw [quoted, List.cons_append, List.append_assoc, List.singleton_append]

mutual

/-- **What is dumped is read back, up to where it ends**; a number must not go on there. -/
theorem scanValue_dumps (hgap : ∀ c ∈ gap, isJsonBlank c = true) : ∀ (v : JsonTree) (fuel : Nat) (rest : List Char),
    v.isExact = true → (∀ n, v = .int n → Ends rest) → v.rounds ≤ fuel →
    scanValue fuel (dumps gap v ++ rest) = some (v, rest)
  | .null, fuel + 1, rest, _, _, _       => rfl
  | .bool true, fuel + 1, rest, _, _, _  => rfl
  | .bool false, fuel + 1, rest, _, _, _ => rfl
  | .int n, fuel + 1, rest, _, hrest, _  => by
    obtain ⟨c, cs, hcs, hc⟩ := toString_head n
    have hnumber := scanNumber_toString n (hrest n rfl)
    rw [dumps, hcs, List.cons_append, scanValue_number hc, ← List.cons_append, ← hcs, hnumber]
  | .str s, fuel + 1, rest, _, _, _      => by
    rw [dumps, quoted, List.cons_append, List.append_assoc, List.singleton_append, scanValue, scanString_of_quoted,
      Option.map_some, String.ofList_toList]
  | .list [], fuel + 1, rest, _, _, _    => rfl
  | .object [], fuel + 1, rest, _, _, _  => rfl
  | .list (item :: items), 0, _, _, _, hfuel     => absurd hfuel (by rw [JsonTree.rounds]; omega)
  | .object (field :: fields), 0, _, _, _, hfuel => absurd hfuel (by rw [JsonTree.rounds]; omega)
  | .list (item :: items), fuel + 1, rest, hv, _, hfuel => by
    have hitems := scanItems_dumps hgap (item :: items) (List.cons_ne_nil _ _) fuel rest hv
      (by rw [JsonTree.rounds] at hfuel; omega)
    obtain ⟨c, cs, hcs, hblank, hbracket⟩ := dumpsItems_head item items (Bool.and_eq_true_iff.1 hv).1
    rw [hcs, List.cons_append] at hitems
    rw [dumps, List.cons_append, List.append_assoc, List.singleton_append, hcs, List.cons_append, scanValue,
      skipBlanks_cons hblank]
    split
    · rename_i heq
      cases heq
      exact absurd rfl hbracket
    · rw [hitems]
      rfl
  | .object (field :: fields), fuel + 1, rest, hv, _, hfuel => by
    have hfields := scanFields_dumps hgap (field :: fields) (List.cons_ne_nil _ _) fuel rest hv
      (by rw [JsonTree.rounds] at hfuel; omega)
    obtain ⟨cs, hcs⟩ := @dumpsFields_head gap field fields
    rw [hcs, List.cons_append] at hfields
    rw [dumps, List.cons_append, List.append_assoc, List.singleton_append, hcs, List.cons_append, scanValue,
      skipBlanks_cons (by decide)]
    show (scanFields fuel ('"' :: (cs ++ '\x7d' :: rest))).map _ = _
    rw [hfields]
    rfl

theorem scanItems_dumps (hgap : ∀ c ∈ gap, isJsonBlank c = true) : ∀ (items : List JsonTree), items ≠ [] →
    ∀ (fuel : Nat) (rest : List Char), areExact items = true → itemsRounds items ≤ fuel →
    scanItems fuel (dumpsItems gap items ++ ']' :: rest) = some (items, rest)
  | [], hne, _, _, _, _                      => absurd rfl hne
  | item :: items, _, 0, _, _, hfuel         => absurd hfuel (by rw [itemsRounds]; omega)
  | [item], _, fuel + 1, rest, hitems, hfuel => by
    rw [areExact, Bool.and_eq_true] at hitems
    simp only [itemsRounds] at hfuel
    have hitem := scanValue_dumps hgap item fuel (']' :: rest) hitems.1 (fun _ _ => ends_cons (by decide) rest)
      (by omega)
    rw [dumpsItems, scanItems, hitem, Option.bind_some, skipBlanks_cons (by decide)]
    rfl
  | item :: next :: items, _, fuel + 1, rest, hitems, hfuel => by
    rw [areExact, Bool.and_eq_true] at hitems
    have hitem := scanValue_dumps hgap item fuel (',' :: (gap ++ dumpsItems gap (next :: items)) ++ ']' :: rest) hitems.1
      (fun _ _ => ends_cons (by decide) _) (by rw [itemsRounds] at hfuel; omega)
    have hrest := scanItems_dumps hgap (next :: items) (List.cons_ne_nil _ _) fuel rest hitems.2
      (by rw [itemsRounds] at hfuel; omega)
    obtain ⟨c, cs, hcs, hblank, -⟩ := @dumpsItems_head gap next items (Bool.and_eq_true_iff.1 hitems.2).1
    rw [dumpsItems, List.append_assoc, scanItems, hitem, Option.bind_some, List.cons_append, skipBlanks_cons (by decide)]
    show (scanItems fuel (skipBlanks (gap ++ dumpsItems gap (next :: items) ++ ']' :: rest))).map _ = _
    rw [hcs, List.cons_append] at hrest
    rw [hcs, List.append_assoc, skipBlanks_gap hgap, List.cons_append, skipBlanks_cons hblank, hrest]
    rfl

theorem scanFields_dumps (hgap : ∀ c ∈ gap, isJsonBlank c = true) : ∀ (fields : List (String × JsonTree)), fields ≠ [] →
    ∀ (fuel : Nat) (rest : List Char), fieldsExact fields = true → fieldsRounds fields ≤ fuel →
    scanFields fuel (dumpsFields gap fields ++ '}' :: rest) = some (fields, rest)
  | [], hne, _, _, _, _                              => absurd rfl hne
  | (key, item) :: fields, _, 0, _, _, hfuel         => absurd hfuel (by rw [fieldsRounds]; omega)
  | [(key, item)], _, fuel + 1, rest, hfields, hfuel => by
    rw [fieldsExact, Bool.and_eq_true] at hfields
    have hitem := scanValue_dumps hgap item fuel ('}' :: rest) hfields.1 (fun _ _ => ends_cons (by decide) rest)
      (by rw [fieldsRounds] at hfuel; omega)
    rw [dumpsFields, List.append_assoc, quoted_append, List.cons_append, scanFields, scanString_of_quoted,
      Option.bind_some, skipBlanks_cons (by decide)]
    show (scanValue fuel (skipBlanks (gap ++ dumps gap item ++ '\x7d' :: rest))).bind _ = _
    rw [List.append_assoc, skipBlanks_gap hgap, skipBlanks_dumps hfields.1, hitem, Option.bind_some,
      skipBlanks_cons (by decide), String.ofList_toList]
    rfl
  | (key, item) :: next :: fields, _, fuel + 1, rest, hfields, hfuel => by
    rw [fieldsExact, Bool.and_eq_true] at hfields
    have hitem := scanValue_dumps hgap item fuel (',' :: (gap ++ dumpsFields gap (next :: fields)) ++ '}' :: rest) hfields.1
      (fun _ _ => ends_cons (by decide) _) (by rw [fieldsRounds] at hfuel; omega)
    have hrest := scanFields_dumps hgap (next :: fields) (List.cons_ne_nil _ _) fuel rest hfields.2
      (by rw [fieldsRounds] at hfuel; omega)
    obtain ⟨cs, hcs⟩ := @dumpsFields_head gap next fields
    rw [dumpsFields, List.append_assoc, List.append_assoc, quoted_append, List.cons_append, scanFields,
      scanString_of_quoted, Option.bind_some, skipBlanks_cons (by decide)]
    show (scanValue fuel (skipBlanks (gap ++ dumps gap item ++ (',' :: (gap ++ dumpsFields gap (next :: fields)) ++
      '\x7d' :: rest)))).bind _ = _
    rw [List.append_assoc, skipBlanks_gap hgap, skipBlanks_dumps hfields.1, hitem, Option.bind_some, List.cons_append,
      skipBlanks_cons (by decide), String.ofList_toList]
    show (scanFields fuel (skipBlanks (gap ++ dumpsFields gap (next :: fields) ++ '\x7d' :: rest))).map _ = _
    rw [hcs, List.cons_append] at hrest
    rw [hcs, List.append_assoc, skipBlanks_gap hgap, List.cons_append, skipBlanks_cons (by decide), hrest]
    rfl

end

mutual

/-- The characters of a text are rounds enough. -/
theorem rounds_le : ∀ v : JsonTree, v.isExact = true → v.rounds + 1 ≤ 2 * (dumps gap v).length
  | .null, _          => by rw [dumps, JsonTree.rounds]; decide
  | .bool true, _     => by rw [dumps, JsonTree.rounds]; decide
  | .bool false, _    => by rw [dumps, JsonTree.rounds]; decide
  | .int n, _         => by
    obtain ⟨c, cs, hcs, -⟩ := toString_head n
    rw [dumps, JsonTree.rounds, hcs, List.length_cons]
    omega
  | .str s, _         => by
    rw [dumps, JsonTree.rounds, quoted, List.length_cons]
    omega
  | .list items, hv   => by
    have hitems := itemsRounds_le items hv
    rw [dumps, JsonTree.rounds, List.length_cons, List.length_append, List.length_singleton]
    omega
  | .object fields, hv => by
    have hfields := fieldsRounds_le fields hv
    rw [dumps, JsonTree.rounds, List.length_cons, List.length_append, List.length_singleton]
    omega

theorem itemsRounds_le : ∀ items : List JsonTree, areExact items = true →
    itemsRounds items ≤ 2 * (dumpsItems gap items).length
  | [], _                         => Nat.zero_le _
  | [item], hitems                => by
    have hitem := rounds_le item (Bool.and_eq_true_iff.1 hitems).1
    rw [dumpsItems, itemsRounds, itemsRounds]
    omega
  | item :: next :: items, hitems => by
    have hitem := rounds_le item (Bool.and_eq_true_iff.1 hitems).1
    have hrest := itemsRounds_le (next :: items) (Bool.and_eq_true_iff.1 hitems).2
    rw [dumpsItems, itemsRounds, List.length_append, List.length_cons, List.length_append]
    omega

theorem fieldsRounds_le : ∀ fields : List (String × JsonTree), fieldsExact fields = true →
    fieldsRounds fields ≤ 2 * (dumpsFields gap fields).length
  | [], _                                  => Nat.zero_le _
  | [(key, item)], hfields                 => by
    have hitem := rounds_le item (Bool.and_eq_true_iff.1 hfields).1
    rw [dumpsFields, fieldsRounds, fieldsRounds, List.length_append, List.length_cons, List.length_append]
    omega
  | (key, item) :: next :: fields, hfields => by
    have hitem := rounds_le item (Bool.and_eq_true_iff.1 hfields).1
    have hrest := fieldsRounds_le (next :: fields) (Bool.and_eq_true_iff.1 hfields).2
    rw [dumpsFields, fieldsRounds, List.length_append, List.length_append, List.length_cons, List.length_append,
      List.length_cons, List.length_append]
    omega

end

/-- **A dumped object is one document**: what follows it is blank, or there is no document. -/
theorem loads_append (hgap : ∀ c ∈ gap, isJsonBlank c = true) {fields : List (String × JsonTree)}
    (hfields : fieldsExact fields = true) (rest : List Char) :
    loads (dumps gap (.object fields) ++ rest) = if (skipBlanks rest).isEmpty then some (.object fields) else none := by
  have hrounds := @rounds_le gap (.object fields) hfields
  have hfuel : (JsonTree.object fields).rounds ≤ 2 * (dumps gap (.object fields) ++ rest).length := by
    rw [List.length_append]
    omega
  rw [loads, skipBlanks_dumps (v := .object fields) hfields,
    scanValue_dumps hgap (.object fields) _ rest hfields (fun _ h => by cases h) hfuel]
  rfl

/-- **What is dumped is loaded.** -/
theorem loads_dumps (hgap : ∀ c ∈ gap, isJsonBlank c = true) {v : JsonTree} (hv : v.isExact = true) :
    loads (dumps gap v) = some v := by
  have hrounds := @rounds_le gap v hv
  have hscan := scanValue_dumps hgap v (2 * (dumps gap v).length) [] hv (fun _ _ => ends_nil) (by omega)
  have hblank := @skipBlanks_dumps gap v hv []
  rw [List.append_nil] at hscan hblank
  rw [loads, hblank, hscan]
  rfl

/-! ## What it is written with -/

abbrev PrintableAscii (c : Char) : Prop := 32 ≤ c.toNat ∧ c.toNat ≤ 126

theorem printable_digitChar : ∀ d < 16, PrintableAscii d.digitChar := by decide

theorem printable_of_all {cs : List Char} (h : cs.all (fun c => decide (PrintableAscii c)) = true) :
    ∀ c ∈ cs, PrintableAscii c :=
  fun c hc => of_decide_eq_true (List.all_eq_true.1 h c hc)

theorem printable_of_number {c : Char} (h : c = '-' ∨ c.isDigit = true) : PrintableAscii c := by
  rcases h with rfl | h
  · decide
  · simp only [Char.isDigit, Bool.and_eq_true, decide_eq_true_eq] at h
    have hlo : 48 ≤ c.toNat := h.1
    have hhi : c.toNat ≤ 57 := h.2
    exact ⟨by omega, by omega⟩

theorem printable_escapeUnit (n : Nat) : ∀ c ∈ escapeUnit n, PrintableAscii c := by
  have hdigit : ∀ m, PrintableAscii (m % 16).digitChar := fun m => printable_digitChar _ (Nat.mod_lt m (by decide))
  simp only [escapeUnit, hexDigits, List.forall_mem_cons, List.not_mem_nil, false_imp_iff, implies_true, and_true]
  exact ⟨by decide, by decide, hdigit _, hdigit _, hdigit _, hdigit n⟩

theorem printable_escapeChar (c : Char) : ∀ d ∈ escapeChar c, PrintableAscii d := by
  unfold escapeChar
  cases hshort : shortEscape c with
  | some e =>
    have he : PrintableAscii e := by
      unfold shortEscape at hshort
      split at hshort
      all_goals cases hshort
      all_goals decide
    intro d hd
    simp only [List.mem_cons, List.not_mem_nil, or_false] at hd
    rcases hd with rfl | rfl
    · decide
    · exact he
  | none =>
    dsimp only
    split
    · rename_i hplain
      intro d hd
      rw [List.mem_singleton] at hd
      exact hd ▸ hplain
    · split
      · exact printable_escapeUnit _
      · intro d hd
        rcases List.mem_append.1 hd with hd | hd
        · exact printable_escapeUnit _ d hd
        · exact printable_escapeUnit _ d hd

theorem printable_quoted (s : String) : ∀ c ∈ quoted s, PrintableAscii c := by
  have hbody : ∀ c ∈ s.toList.flatMap escapeChar, PrintableAscii c := by
    intro c hc
    obtain ⟨d, -, hd⟩ := List.mem_flatMap.1 hc
    exact printable_escapeChar d c hd
  intro c hc
  rw [quoted, List.mem_cons, List.mem_append, List.mem_singleton] at hc
  rcases hc with rfl | hc | rfl
  · decide
  · exact hbody c hc
  · decide

mutual

/-- **The text is printable ASCII**, so it has no line break. -/
theorem printable_dumps (hgap : ∀ c ∈ gap, PrintableAscii c) : ∀ v : JsonTree, v.isExact = true →
    ∀ c ∈ dumps gap v, PrintableAscii c
  | .null, _           => by rw [dumps]; exact printable_of_all (by decide)
  | .bool true, _      => by rw [dumps]; exact printable_of_all (by decide)
  | .bool false, _     => by rw [dumps]; exact printable_of_all (by decide)
  | .int n, _          => fun c hc => printable_of_number (mem_toString hc)
  | .str s, _          => printable_quoted s
  | .list items, hv    => by
    intro c hc
    rw [dumps, List.mem_cons, List.mem_append, List.mem_singleton] at hc
    rcases hc with rfl | hc | rfl
    · decide
    · exact printable_dumpsItems hgap items hv c hc
    · decide
  | .object fields, hv => by
    intro c hc
    rw [dumps, List.mem_cons, List.mem_append, List.mem_singleton] at hc
    rcases hc with rfl | hc | rfl
    · decide
    · exact printable_dumpsFields hgap fields hv c hc
    · decide

theorem printable_dumpsItems (hgap : ∀ c ∈ gap, PrintableAscii c) : ∀ items : List JsonTree, areExact items = true →
    ∀ c ∈ dumpsItems gap items, PrintableAscii c
  | [], _                         => fun c hc => absurd hc List.not_mem_nil
  | [item], hitems                => printable_dumps hgap item (Bool.and_eq_true_iff.1 hitems).1
  | item :: next :: items, hitems => by
    intro c hc
    rw [dumpsItems, List.mem_append, List.mem_cons, List.mem_append] at hc
    rcases hc with hc | rfl | hc | hc
    · exact printable_dumps hgap item (Bool.and_eq_true_iff.1 hitems).1 c hc
    · decide
    · exact hgap c hc
    · exact printable_dumpsItems hgap (next :: items) (Bool.and_eq_true_iff.1 hitems).2 c hc

theorem printable_dumpsFields (hgap : ∀ c ∈ gap, PrintableAscii c) : ∀ fields : List (String × JsonTree),
    fieldsExact fields = true → ∀ c ∈ dumpsFields gap fields, PrintableAscii c
  | [], _                                  => fun c hc => absurd hc List.not_mem_nil
  | [(key, item)], hfields                 => by
    intro c hc
    rw [dumpsFields, List.mem_append, List.mem_cons, List.mem_append] at hc
    rcases hc with hc | rfl | hc | hc
    · exact printable_quoted key c hc
    · decide
    · exact hgap c hc
    · exact printable_dumps hgap item (Bool.and_eq_true_iff.1 hfields).1 c hc
  | (key, item) :: next :: fields, hfields => by
    intro c hc
    rw [dumpsFields, List.mem_append, List.mem_append, List.mem_cons, List.mem_append, List.mem_cons, List.mem_append] at hc
    rcases hc with (hc | rfl | hc | hc) | rfl | hc | hc
    · exact printable_quoted key c hc
    · decide
    · exact hgap c hc
    · exact printable_dumps hgap item (Bool.and_eq_true_iff.1 hfields).1 c hc
    · decide
    · exact hgap c hc
    · exact printable_dumpsFields hgap (next :: fields) (Bool.and_eq_true_iff.1 hfields).2 c hc

end

end Values

end Python
