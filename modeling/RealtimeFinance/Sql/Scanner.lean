import Mathlib.Data.List.DropRight
import RealtimeFinance.Python.Text
/-!
# Scanner — a text cut into statements, one character at a time

A scanner reads a character in a state, with the one after it in sight, and keeps it, drops it or cuts there.  What is
kept between two cuts is a segment; the segments that are not blank, stripped, are the statements.

Two scanners give a text the same statements exactly when they act alike on every character (`statements_eq_iff`), as
long as they part only where it shows (`Shows`): over a character that is not blank, in a segment that is not blank, which
one of them keeps and which the other's segment does not go on with.
-/
namespace Sql

open Python

inductive Act | keep | drop | cut
  deriving DecidableEq

structure Scanner (σ : Type) where
  act : σ → Char → Option Char → Act
  next : σ → Char → Option Char → σ

variable {σ τ : Type}

/-- The characters of a text, each with the state it is read in. -/
def Scanner.scan (m : Scanner σ) (s : σ) : List Char → List (Char × σ)
  | []      => []
  | c :: cs => (c, s) :: m.scan (m.next s c cs.head?) cs

/-- The characters of a text, each with what is done to it. -/
def Scanner.acts (m : Scanner σ) (s : σ) : List Char → List (Char × Act)
  | []      => []
  | c :: cs => (c, m.act s c cs.head?) :: m.acts (m.next s c cs.head?) cs

/-- What is kept between the cuts. -/
def segments (acted : List (Char × Act)) : List (List Char) :=
  (acted.splitOnP (fun p => p.2 == .cut)).map (fun segment => (segment.filter (fun p => p.2 == .keep)).map Prod.fst)

/-- The segments that are not blank, stripped. -/
def stripped (blank : Char → Bool) (segments : List (List Char)) : List (List Char) :=
  (segments.filter (fun segment => !(stripBy blank segment).isEmpty)).map (stripBy blank)

/-- The segments, the first of which has begun with `current`. -/
def segmentsFrom (current : List Char) (acted : List (Char × Act)) : List (List Char) :=
  (segments acted).modifyHead (current ++ ·)

/-- The segment that is being read, after a character. -/
def Act.extend (current : List Char) (c : Char) : Act → List Char
  | .keep => current ++ [c]
  | .drop => current
  | .cut  => []

/-- The first character that is kept before the next cut. -/
def firstKept : List (Char × Act) → Option Char
  | []                => none
  | (c, .keep) :: _   => some c
  | (_, .drop) :: ps  => firstKept ps
  | (_, .cut) :: _    => none

section Segments

theorem segments_cons_keep (c : Char) (ps : List (Char × Act)) :
    segments ((c, .keep) :: ps) = (segments ps).modifyHead (c :: ·) := by
  unfold segments
  rw [List.splitOnP_cons_eq_if_modifyHead]
  cases hcuts : ps.splitOnP (fun p => p.2 == .cut) with
  | nil => exact absurd hcuts (List.splitOnP_ne_nil _ _)
  | cons first rest => rfl

theorem segments_cons_drop (c : Char) (ps : List (Char × Act)) : segments ((c, .drop) :: ps) = segments ps := by
  unfold segments
  rw [List.splitOnP_cons_eq_if_modifyHead]
  cases hcuts : ps.splitOnP (fun p => p.2 == .cut) with
  | nil => exact absurd hcuts (List.splitOnP_ne_nil _ _)
  | cons first rest => rfl

theorem segments_cons_cut (c : Char) (ps : List (Char × Act)) : segments ((c, .cut) :: ps) = [] :: segments ps := by
  unfold segments
  rw [List.splitOnP_cons_eq_if_modifyHead]
  rfl

theorem segmentsFrom_nil (current : List Char) : segmentsFrom current [] = [current] := by
  simp [segmentsFrom, segments]

theorem segmentsFrom_nil_left (ps : List (Char × Act)) : segmentsFrom [] ps = segments ps := by
  unfold segmentsFrom
  cases segments ps with
  | nil => rfl
  | cons first rest => rfl

/-- **One character on.** -/
theorem segmentsFrom_cons (current : List Char) (c : Char) (a : Act) (ps : List (Char × Act)) :
    segmentsFrom current ((c, a) :: ps) =
      if a = .cut then current :: segmentsFrom [] ps else segmentsFrom (a.extend current c) ps := by
  cases a with
  | keep =>
    rw [if_neg (by decide)]
    unfold segmentsFrom
    rw [segments_cons_keep, List.modifyHead_modifyHead]
    congr 1
    funext segment
    simp [Act.extend]
  | drop =>
    rw [if_neg (by decide)]
    unfold segmentsFrom
    rw [segments_cons_drop]
    rfl
  | cut =>
    rw [if_pos rfl, segmentsFrom_nil_left]
    unfold segmentsFrom
    rw [segments_cons_cut]
    simp

theorem segments_head (acted : List (Char × Act)) :
    ∃ first rest, segments acted = first :: rest ∧ first.head? = firstKept acted := by
  induction acted with
  | nil => exact ⟨[], [], rfl, rfl⟩
  | cons p ps ih =>
    obtain ⟨first, rest, hsegments, hhead⟩ := ih
    obtain ⟨c, a⟩ := p
    cases a with
    | keep =>
      rw [segments_cons_keep, hsegments]
      exact ⟨c :: first, rest, rfl, rfl⟩
    | drop =>
      rw [segments_cons_drop, hsegments]
      exact ⟨first, rest, rfl, hhead⟩
    | cut =>
      rw [segments_cons_cut]
      exact ⟨[], segments ps, rfl, rfl⟩

/-- A scanner that drops everything up to a `d`, which it keeps, keeps nothing else before it. -/
theorem firstKept_of_skips {m : Scanner σ} {P : σ → Prop} {d : Char}
    (hact : ∀ s, P s → ∀ c ahead, m.act s c ahead = if c = d then .keep else .drop)
    (hnext : ∀ s, P s → ∀ c ahead, c ≠ d → P (m.next s c ahead)) {s : σ} (h : P s) {e : Char} (he : e ≠ d)
    (cs : List Char) : firstKept (m.acts s cs) ≠ some e := by
  induction cs generalizing s with
  | nil => exact Option.some_ne_none e ∘ Eq.symm
  | cons c cs ih =>
    rw [Scanner.acts, hact s h]
    by_cases hcd : c = d
    · rw [if_pos hcd, firstKept, hcd]
      exact fun heq => he (Option.some.inj heq).symm
    · rw [if_neg hcd, firstKept]
      exact ih (hnext s h c cs.head? hcd)

end Segments

section Stripped

variable {blank : Char → Bool}

/-- A segment with a character that is not blank. -/
def Solid (blank : Char → Bool) (cs : List Char) : Prop := ∃ c ∈ cs, blank c = false

theorem Solid.append_left {cs : List Char} (h : Solid blank cs) (ds : List Char) : Solid blank (cs ++ ds) := by
  obtain ⟨c, hc, hblank⟩ := h
  exact ⟨c, List.mem_append_left _ hc, hblank⟩

theorem solid_concat {c : Char} (h : blank c = false) (cs : List Char) : Solid blank (cs ++ [c]) :=
  ⟨c, List.mem_append_right _ (List.mem_singleton_self c), h⟩

theorem Solid.stripBy_ne_nil {cs : List Char} (h : Solid blank cs) : stripBy blank cs ≠ [] := by
  intro hnil
  obtain ⟨c, hc, hblank⟩ := h
  obtain ⟨before, after, hcs, hbefore, hafter⟩ := stripBy_split blank cs
  rw [hnil, List.append_nil] at hcs
  rw [hcs] at hc
  rcases List.mem_append.1 hc with hc | hc
  · rw [hbefore c hc] at hblank
    cases hblank
  · rw [hafter c hc] at hblank
    cases hblank

/-- The blanks in front of it are all that a strip takes away before its first character that is not blank. -/
theorem Solid.exists_stripBy_append {current : List Char} (h : Solid blank current) : ∃ body : List Char,
    ∀ tail, stripBy blank (current ++ tail) = (body ++ tail).rdropWhile blank := by
  obtain ⟨c, hc, hblank⟩ := h
  refine ⟨current.dropWhile blank, fun tail => ?_⟩
  have hdrop : current.dropWhile blank ≠ [] := by
    intro hnil
    rw [List.dropWhile_eq_nil_iff] at hnil
    rw [hnil c hc] at hblank
    cases hblank
  unfold stripBy List.rdropWhile
  rw [List.dropWhile_append, if_neg (by simpa using hdrop)]

theorem prefix_rdropWhile {c : Char} (h : blank c = false) (cs tail : List Char) :
    cs ++ [c] <+: (cs ++ c :: tail).rdropWhile blank := by
  have hfirst : (c :: cs.reverse).dropWhile blank = c :: cs.reverse := by
    rw [List.dropWhile_cons, h]
    rfl
  have hback : (cs ++ c :: tail).reverse = tail.reverse ++ c :: cs.reverse := by simp
  have hkept : (cs ++ [c]).reverse = c :: cs.reverse := by simp
  unfold List.rdropWhile
  rw [← List.reverse_suffix, List.reverse_reverse, hback, hkept, List.dropWhile_append]
  split
  · exact ⟨[], hfirst.symm⟩
  · exact List.suffix_append _ _

/-- **Two segments that part over a character that is not blank are two statements.** -/
theorem Solid.stripBy_ne {current : List Char} (h : Solid blank current) {c : Char} (hc : blank c = false)
    {tail tail' : List Char} (hother : tail'.head? ≠ some c) :
    stripBy blank (current ++ c :: tail) ≠ stripBy blank (current ++ tail') := by
  obtain ⟨body, hbody⟩ := h.exists_stripBy_append
  intro heq
  rw [hbody, hbody] at heq
  have hkept := (prefix_rdropWhile hc body tail).trans (heq ▸ List.rdropWhile_prefix blank (body ++ tail'))
  rw [List.prefix_append_right_inj] at hkept
  cases tail' with
  | nil => exact absurd hkept (by simp)
  | cons d ds =>
    rw [List.cons_prefix_cons] at hkept
    rw [hkept.1] at hother
    exact hother rfl

theorem stripped_cons (first : List Char) (rest : List (List Char)) : stripped blank (first :: rest) =
    if stripBy blank first = [] then stripped blank rest else stripBy blank first :: stripped blank rest := by
  unfold stripped
  rw [List.filter_cons]
  by_cases h : stripBy blank first = []
  · simp [h]
  · simp [h]

theorem stripped_cons_inj (first : List Char) {rest rest' : List (List Char)} :
    stripped blank (first :: rest) = stripped blank (first :: rest') ↔ stripped blank rest = stripped blank rest' := by
  rw [stripped_cons, stripped_cons]
  split
  · exact Iff.rfl
  · exact ⟨fun h => (List.cons.inj h).2, fun h => by rw [h]⟩

end Stripped

section Two

variable {blank : Char → Bool}

/-- It shows that a character was kept here and not there. -/
def Shows (blank : Char → Bool) (current : List Char) (c : Char) (kept other : List (Char × Act)) : Prop :=
  Solid blank current ∧ blank c = false ∧ firstKept kept = some c ∧ firstKept other ≠ some c

theorem Shows.stripped_ne {current : List Char} {c : Char} {kept other : List (Char × Act)}
    (h : Shows blank current c kept other) :
    stripped blank (segmentsFrom current kept) ≠ stripped blank (segmentsFrom current other) := by
  obtain ⟨hsolid, hblank, hkept, hother⟩ := h
  obtain ⟨first, rest, hsegments, hfirst⟩ := segments_head kept
  obtain ⟨first', rest', hsegments', hfirst'⟩ := segments_head other
  rw [hkept] at hfirst
  rw [← hfirst'] at hother
  obtain ⟨tail, rfl⟩ := List.head?_eq_some_iff.1 hfirst
  unfold segmentsFrom
  rw [hsegments, hsegments', List.modifyHead_cons, List.modifyHead_cons, stripped_cons, stripped_cons,
    if_neg (hsolid.append_left _).stripBy_ne_nil, if_neg (hsolid.append_left _).stripBy_ne_nil]
  intro heq
  exact hsolid.stripBy_ne hblank hother (List.cons.inj heq).1

theorem Scanner.acts_cons_eq_iff {m : Scanner σ} {n : Scanner τ} {s : σ} {t : τ} {c : Char} {cs : List Char}
    (hact : m.act s c cs.head? = n.act t c cs.head?) : m.acts s (c :: cs) = n.acts t (c :: cs) ↔
      m.acts (m.next s c cs.head?) cs = n.acts (n.next t c cs.head?) cs := by
  rw [Scanner.acts, Scanner.acts, hact, List.cons.injEq]
  exact and_iff_right rfl

theorem Scanner.acts_cons_ne {m : Scanner σ} {n : Scanner τ} {s : σ} {t : τ} {c : Char} {cs : List Char}
    (hact : m.act s c cs.head? ≠ n.act t c cs.head?) : m.acts s (c :: cs) ≠ n.acts t (c :: cs) := by
  intro heq
  exact hact (Prod.mk.inj (List.cons.inj heq).1).2

/-- Two scanners that keep in step while they act alike, and part only where it shows. -/
structure InStep (blank : Char → Bool) (m : Scanner σ) (n : Scanner τ) (inv : σ → τ → List Char → Prop) : Prop where
  alike : ∀ {s t current c ahead}, inv s t current → m.act s c ahead = n.act t c ahead →
    inv (m.next s c ahead) (n.next t c ahead) ((m.act s c ahead).extend current c)
  apart : ∀ {s t current c cs}, inv s t current → m.act s c cs.head? ≠ n.act t c cs.head? →
    Shows blank current c (m.acts s (c :: cs)) (n.acts t (c :: cs)) ∨
      Shows blank current c (n.acts t (c :: cs)) (m.acts s (c :: cs))

/-- **The same statements, and the scanners act alike on every character.** -/
theorem InStep.statements_eq_iff {m : Scanner σ} {n : Scanner τ} {inv : σ → τ → List Char → Prop}
    (h : InStep blank m n inv) {s : σ} {t : τ} {current : List Char} (hinv : inv s t current) (cs : List Char) :
    stripped blank (segmentsFrom current (m.acts s cs)) = stripped blank (segmentsFrom current (n.acts t cs)) ↔
      m.acts s cs = n.acts t cs := by
  induction cs generalizing s t current with
  | nil => exact ⟨fun _ => rfl, fun _ => rfl⟩
  | cons c cs ih =>
    by_cases hact : m.act s c cs.head? = n.act t c cs.head?
    · have hrest := ih (h.alike hinv hact)
      rw [Scanner.acts_cons_eq_iff hact, ← hrest, Scanner.acts, Scanner.acts, ← hact, segmentsFrom_cons, segmentsFrom_cons]
      split
      · rename_i hcut
        rw [hcut, stripped_cons_inj]
        rfl
      · exact Iff.rfl
    · constructor
      · intro heq
        rcases h.apart hinv hact with hshows | hshows
        · exact absurd heq hshows.stripped_ne
        · exact absurd heq.symm hshows.stripped_ne
      · intro heq
        exact absurd heq (Scanner.acts_cons_ne hact)

end Two

/-- Every way to stand at an element of a list, by whether it is the first. -/
theorem forall_split_cons {α : Type} {P : List α → α → List α → Prop} (y : α) (ys : List α) :
    (∀ before x after, y :: ys = before ++ x :: after → P before x after) ↔
      P [] y ys ∧ ∀ before x after, ys = before ++ x :: after → P (y :: before) x after := by
  constructor
  · intro h
    exact ⟨h [] y ys rfl, fun before x after hys => h (y :: before) x after (by rw [hys]; rfl)⟩
  · rintro ⟨hfirst, hrest⟩ before x after hsplit
    cases before with
    | nil =>
      obtain ⟨rfl, rfl⟩ := List.cons.inj hsplit
      exact hfirst
    | cons b before =>
      obtain ⟨rfl, hys⟩ := List.cons.inj hsplit
      exact hrest before x after hys

end Sql
