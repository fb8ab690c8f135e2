import RealtimeFinance.Sql.Scanner
/-!
# Tally — how many statements a scanner finds

A tally reads a text as a scanner does and keeps of it only what the number of statements depends on: whether the segment
it is in shows anything, and how many that did are finished (`length_stripped`).  A text is tallied piece by piece, each
with the character that follows it in sight (`tally_append`).
-/
namespace Sql

open Python

structure Tally (σ : Type) where
  state : σ
  shown : Bool
  finished : Nat

variable {σ : Type}

def Tally.total (t : Tally σ) : Nat := if t.shown then t.finished + 1 else t.finished

def Tally.act (blank : Char → Bool) (t : Tally σ) (next : σ) (c : Char) : Act → Tally σ
  | .keep => ⟨next, t.shown || !blank c, t.finished⟩
  | .drop => ⟨next, t.shown, t.finished⟩
  | .cut  => ⟨next, false, t.total⟩

/-- One character read. -/
def Scanner.count (m : Scanner σ) (blank : Char → Bool) (t : Tally σ) (c : Char) (ahead : Option Char) : Tally σ :=
  t.act blank (m.next t.state c ahead) c (m.act t.state c ahead)

/-- A text read; `ahead` follows it. -/
def Scanner.tally (m : Scanner σ) (blank : Char → Bool) (t : Tally σ) : List Char → Option Char → Tally σ
  | [], _         => t
  | c :: cs, ahead => m.tally blank (m.count blank t c (cs.head?.or ahead)) cs ahead

variable (m : Scanner σ) (blank : Char → Bool)

theorem count_state (t : Tally σ) (c : Char) (ahead : Option Char) :
    (m.count blank t c ahead).state = m.next t.state c ahead := by
  unfold Scanner.count
  cases m.act t.state c ahead <;> rfl

theorem tally_append (v rest : List Char) (ahead : Option Char) (t : Tally σ) :
    m.tally blank t (v ++ rest) ahead = m.tally blank (m.tally blank t v (rest.head?.or ahead)) rest ahead := by
  induction v generalizing t with
  | nil => rfl
  | cons c v ih =>
    have hhead : ((v ++ rest).head?.or ahead) = v.head?.or (rest.head?.or ahead) := by
      rw [List.head?_append, Option.or_assoc]
    rw [List.cons_append, Scanner.tally, Scanner.tally, ih, hhead]

/-- What was finished before is added. -/
theorem tally_finished (text : List Char) (ahead : Option Char) (n : Nat) (t : Tally σ) :
    m.tally blank { t with finished := n + t.finished } text ahead =
      { m.tally blank t text ahead with finished := n + (m.tally blank t text ahead).finished } := by
  induction text generalizing t with
  | nil => rfl
  | cons c text ih =>
    have hcount : ∀ a, m.count blank { t with finished := n + t.finished } c a =
        { m.count blank t c a with finished := n + (m.count blank t c a).finished } := by
      intro a
      unfold Scanner.count
      dsimp only
      cases m.act t.state c a with
      | keep => rfl
      | drop => rfl
      | cut =>
        unfold Tally.act Tally.total
        dsimp only
        cases t.shown <;> rfl
    rw [Scanner.tally, hcount, ih, Scanner.tally]

/-- A segment is stripped to nothing where it is blank. -/
theorem stripBy_isEmpty (cs : List Char) : (stripBy blank cs).isEmpty = cs.all blank := by
  rw [Bool.eq_iff_iff, List.isEmpty_iff, List.all_eq_true]
  constructor
  · intro h
    obtain ⟨before, after, hsplit, hbefore, hafter⟩ := stripBy_split blank cs
    rw [h, List.append_nil] at hsplit
    intro c hc
    rw [hsplit, List.mem_append] at hc
    exact hc.elim (hbefore c) (hafter c)
  · intro h
    have hnil : cs.dropWhile blank = [] := List.dropWhile_eq_nil_iff.2 h
    rw [stripBy, hnil]
    rfl

theorem length_stripped_cons (current : List Char) (segments : List (List Char)) :
    (stripped blank (current :: segments)).length =
      (if current.all blank then 0 else 1) + (stripped blank segments).length := by
  unfold stripped
  rw [List.length_map, List.length_map, List.filter_cons, stripBy_isEmpty]
  cases current.all blank with
  | true => simp
  | false => simp [Nat.add_comm]

/-- **The statements are as many as a tally finds.** -/
theorem length_stripped (text : List Char) (s : σ) (current : List Char) (n : Nat) :
    n + (stripped blank (segmentsFrom current (m.acts s text))).length =
      (m.tally blank ⟨s, !current.all blank, n⟩ text none).total := by
  induction text generalizing s current n with
  | nil =>
    rw [Scanner.acts, segmentsFrom_nil, length_stripped_cons, Scanner.tally, Tally.total]
    cases current.all blank <;> rfl
  | cons c cs ih =>
    rw [Scanner.acts, segmentsFrom_cons, Scanner.tally, Option.or_none, Scanner.count]
    dsimp only
    cases hact : m.act s c cs.head? with
    | keep =>
      rw [if_neg (by decide), ih]
      simp [Act.extend, Tally.act, List.all_append]
    | drop =>
      rw [if_neg (by decide), ih]
      rfl
    | cut =>
      rw [if_pos rfl, length_stripped_cons, ← Nat.add_assoc, ih]
      cases hall : current.all blank <;> simp [Tally.act, Tally.total]

end Sql
