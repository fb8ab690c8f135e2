import RealtimeFinance.Ingest.JsonRows
/-!
# RowLoop — what a loop over rows gives

The loop passes over a row that raises a `KeyError` or a `ValueError`, and stops at any other.  Beside the conversion of a
row stands the trade that the row holds: where there is one, the conversion gives it (`Holds`).  Then the loop gives exactly
the trades that the rows hold when nothing escapes a row and no other trade comes of one (`Holds.collectFrom_eq_iff`).
-/
namespace Ingest

open Python

variable {ρ : Type} {convert : Int → ρ → Except Raised (Option Trade)} {tradeOf : Int → ρ → Option Trade}
  {clock : Nat → Int}

/-- What `except (KeyError, ValueError): continue` leaves of a row. -/
def passOver : Except Raised (Option Trade) → Except Raised (Option Trade)
  | .ok trade     => .ok trade
  | .error raised => if raised.isCaught then .ok none else .error raised

/-- **One row on.** -/
theorem collectFrom_cons (k : Nat) (row : ρ) (rows : List ρ) : collectFrom convert clock k (row :: rows) =
    (passOver (convert (clock k) row)).bind
      (fun trade => (collectFrom convert clock (k + 1) rows).map (trade.toList ++ ·)) := by
  rw [collectFrom]
  cases convert (clock k) row with
  | error raised =>
    by_cases hcaught : raised.isCaught = true
    · simp only [passOver, hcaught, if_true, Except.bind]
      cases collectFrom convert clock (k + 1) rows <;> rfl
    · simp only [passOver, hcaught, Bool.false_eq_true, if_false, Except.bind]
  | ok trade =>
    cases trade with
    | none =>
      simp only [passOver, Except.bind]
      cases collectFrom convert clock (k + 1) rows <;> rfl
    | some trade => rfl

theorem collectFrom_cons_eq_ok {k : Nat} {row : ρ} {rows : List ρ} {trades : List Trade} :
    collectFrom convert clock k (row :: rows) = .ok trades ↔ ∃ trade rest, passOver (convert (clock k) row) = .ok trade ∧
      collectFrom convert clock (k + 1) rows = .ok rest ∧ trades = trade.toList ++ rest := by
  rw [collectFrom_cons]
  cases passOver (convert (clock k) row) with
  | error raised => simp [Except.bind]
  | ok trade =>
    cases collectFrom convert clock (k + 1) rows with
    | error raised => simp [Except.bind, Except.map]
    | ok rest => simp [Except.bind, Except.map, eq_comm]

theorem collectFrom_append (k : Nat) (xs ys : List ρ) : collectFrom convert clock k (xs ++ ys) =
    (collectFrom convert clock k xs).bind
      (fun trades => (collectFrom convert clock (k + xs.length) ys).map (trades ++ ·)) := by
  induction xs generalizing k with
  | nil =>
    show collectFrom convert clock k ys = (collectFrom convert clock k ys).map ([] ++ ·)
    cases collectFrom convert clock k ys <;> rfl
  | cons x xs ih =>
    rw [List.cons_append, collectFrom_cons, collectFrom_cons, ih, List.length_cons,
      show k + (xs.length + 1) = k + 1 + xs.length by omega]
    cases passOver (convert (clock k) x) with
    | error raised => rfl
    | ok trade =>
      cases collectFrom convert clock (k + 1) xs with
      | error raised => rfl
      | ok trades =>
        cases collectFrom convert clock (k + 1 + xs.length) ys with
        | error raised => rfl
        | ok rest => simp [Except.bind, Except.map]

theorem tradesOf_cons (k : Nat) (row : ρ) (rows : List ρ) : tradesOf tradeOf clock k (row :: rows) =
    (tradeOf (clock k) row).toList ++ tradesOf tradeOf clock (k + 1) rows := by
  unfold tradesOf
  rw [List.zipIdx_cons, List.filterMap_cons]
  cases tradeOf (clock k) row <;> rfl

/-- A row does no harm: nothing escapes it, and a trade that it gives is the one it holds. -/
def Contained (convert : Int → ρ → Except Raised (Option Trade)) (tradeOf : Int → ρ → Option Trade) (now : Int)
    (row : ρ) : Prop :=
  ¬ Escapes (convert now row) ∧ ∀ trade, convert now row = .ok (some trade) → tradeOf now row = some trade

/-- The trade that a row holds is what the loop makes of it. -/
def Holds (convert : Int → ρ → Except Raised (Option Trade)) (tradeOf : Int → ρ → Option Trade) : Prop :=
  ∀ now row trade, tradeOf now row = some trade → convert now row = .ok (some trade)

theorem Holds.of_passOver (h : Holds convert tradeOf) {now : Int} {row : ρ} {trade : Option Trade}
    (hrow : passOver (convert now row) = .ok trade) : tradeOf now row = none ∨ tradeOf now row = trade := by
  cases htrade : tradeOf now row with
  | none => exact Or.inl rfl
  | some held =>
    rw [h now row held htrade] at hrow
    exact Or.inr (Except.ok.inj hrow)

theorem Holds.contained_iff (h : Holds convert tradeOf) (now : Int) (row : ρ) :
    Contained convert tradeOf now row ↔ passOver (convert now row) = .ok (tradeOf now row) := by
  unfold Contained
  cases hrow : convert now row with
  | error raised =>
    have hnone : tradeOf now row = none := by
      cases htrade : tradeOf now row with
      | none => rfl
      | some held =>
        rw [h now row held htrade] at hrow
        cases hrow
    cases hcaught : raised.isCaught with
    | true => simp [passOver, hcaught, hnone]
    | false => simp [passOver, hcaught]
  | ok trade =>
    cases trade with
    | none =>
      have hnone : tradeOf now row = none := by
        cases htrade : tradeOf now row with
        | none => rfl
        | some held =>
          rw [h now row held htrade] at hrow
          cases hrow
      simp [passOver, hnone]
    | some trade => simp [passOver, eq_comm]

/-- No trade that a row holds is missing, when nothing escapes. -/
theorem Holds.length_le (h : Holds convert tradeOf) {k : Nat} {rows : List ρ} {trades : List Trade}
    (hrows : collectFrom convert clock k rows = .ok trades) : (tradesOf tradeOf clock k rows).length ≤ trades.length := by
  induction rows generalizing k trades with
  | nil => exact Nat.zero_le _
  | cons row rows ih =>
    obtain ⟨trade, rest, hrow, hrest, rfl⟩ := collectFrom_cons_eq_ok.1 hrows
    have hle := ih hrest
    rw [tradesOf_cons, List.length_append, List.length_append]
    rcases h.of_passOver hrow with hnone | hsame
    · rw [hnone, Option.toList_none, List.length_nil]
      omega
    · rw [hsame]
      omega

/-- **The loop gives the trades that the rows hold exactly when every row is contained.** -/
theorem Holds.collectFrom_eq_iff (h : Holds convert tradeOf) (k : Nat) (rows : List ρ) :
    collectFrom convert clock k rows = .ok (tradesOf tradeOf clock k rows) ↔
      ∀ row ∈ rows.zipIdx k, Contained convert tradeOf (clock row.2) row.1 := by
  induction rows generalizing k with
  | nil => exact ⟨fun _ row hrow => absurd hrow List.not_mem_nil, fun _ => rfl⟩
  | cons row rows ih =>
    rw [List.zipIdx_cons, List.forall_mem_cons, ← ih, h.contained_iff, collectFrom_cons_eq_ok, tradesOf_cons]
    constructor
    · rintro ⟨trade, rest, hrow, hrest, heq⟩
      have hle := h.length_le hrest
      rcases h.of_passOver hrow with hnone | hsame
      · rw [hnone, Option.toList_none, List.nil_append] at heq
        have hlength := congrArg List.length heq
        rw [List.length_append] at hlength
        have htrade : trade = none := by
          cases trade with
          | none => rfl
          | some trade =>
            rw [Option.toList_some, List.length_singleton] at hlength
            omega
        rw [htrade] at hrow heq
        exact ⟨hrow.trans (by rw [hnone]), hrest.trans (by rw [heq]; rfl)⟩
      · rw [hsame] at heq ⊢
        exact ⟨hrow, hrest.trans (by rw [List.append_cancel_left heq])⟩
    · rintro ⟨hrow, hrest⟩
      exact ⟨_, _, hrow, hrest, rfl⟩

/-- The same, of a condition on the rows alone. -/
theorem Holds.collectFrom_eq_iff_forall (h : Holds convert tradeOf) {Safe : ρ → Prop}
    (hsafe : ∀ now row, Contained convert tradeOf now row ↔ Safe row) (k : Nat) (rows : List ρ) :
    collectFrom convert clock k rows = .ok (tradesOf tradeOf clock k rows) ↔ ∀ row ∈ rows, Safe row := by
  rw [h.collectFrom_eq_iff]
  simp only [hsafe]
  rw [← List.forall_mem_map (f := Prod.fst) (P := Safe), List.zipIdx_map_fst]

end Ingest
