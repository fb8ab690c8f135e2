/-!
# Fifo — logs of a first-in first-out queue

A log notes each item put, each item taken by a reader and each item dropped, oldest move first.  `Replays log held` says
that the log is one of a queue that adds at the back and lets go at the front, and that it ends with `held`.  What such a
log says of its items: those put are those that left, in the order they left, and then those held (`Replays.puts_eq`).
-/
namespace Fifo

inductive Move (α : Type)
  | put (item : α)
  | get (item : α)
  | drop (item : α)

variable {α : Type}

def Move.entered : Move α → Option α
  | .put item => some item
  | _         => none

def Move.taken : Move α → Option α
  | .get item => some item
  | _         => none

def Move.lost : Move α → Option α
  | .drop item => some item
  | _          => none

def Move.left : Move α → Option α
  | .put _     => none
  | .get item  => some item
  | .drop item => some item

def puts (log : List (Move α)) : List α := log.filterMap Move.entered

def gets (log : List (Move α)) : List α := log.filterMap Move.taken

def drops (log : List (Move α)) : List α := log.filterMap Move.lost

/-- The items that are out, in the order they left. -/
def departures (log : List (Move α)) : List α := log.filterMap Move.left

inductive Replays : List (Move α) → List α → Prop
  | nil : Replays [] []
  | put {log held} (item : α) : Replays log held → Replays (log ++ [.put item]) (held ++ [item])
  | get {log item held} : Replays log (item :: held) → Replays (log ++ [.get item]) held
  | drop {log item held} : Replays log (item :: held) → Replays (log ++ [.drop item]) held

variable {log : List (Move α)} {held : List α}

theorem puts_concat (log : List (Move α)) (m : Move α) : puts (log ++ [m]) = puts log ++ m.entered.toList := by
  cases m <;> simp [puts, Move.entered]

theorem departures_concat (log : List (Move α)) (m : Move α) :
    departures (log ++ [m]) = departures log ++ m.left.toList := by
  cases m <;> simp [departures, Move.left]

theorem drops_concat (log : List (Move α)) (m : Move α) : drops (log ++ [m]) = drops log ++ m.lost.toList := by
  cases m <;> simp [drops, Move.lost]

/-- **First in, first out.** -/
theorem Replays.puts_eq (h : Replays log held) : puts log = departures log ++ held := by
  induction h with
  | nil => rfl
  | put item _ ih => rw [puts_concat, departures_concat, ih, List.append_assoc]; simp [Move.entered, Move.left]
  | get _ ih => rw [puts_concat, departures_concat, ih, List.append_assoc]; simp [Move.entered, Move.left]
  | drop _ ih => rw [puts_concat, departures_concat, ih, List.append_assoc]; simp [Move.entered, Move.left]

/-- The items held are the ones put last. -/
theorem Replays.suffix (h : Replays log held) : held <:+ puts log := ⟨departures log, h.puts_eq.symm⟩

theorem gets_sublist : ∀ log : List (Move α), (gets log).Sublist (departures log)
  | []                => List.Sublist.slnil
  | .put _ :: log     => gets_sublist log
  | .get item :: log  => (gets_sublist log).cons_cons item
  | .drop item :: log => (gets_sublist log).cons item

theorem departures_length : ∀ log : List (Move α), (departures log).length = (gets log).length + (drops log).length
  | []             => rfl
  | .put _ :: log  => departures_length log
  | .get _ :: log  => by
    have ih := departures_length log
    simp only [departures, gets, drops, List.filterMap_cons, Move.left, Move.taken, Move.lost, List.length_cons] at ih ⊢
    omega
  | .drop _ :: log => by
    have ih := departures_length log
    simp only [departures, gets, drops, List.filterMap_cons, Move.left, Move.taken, Move.lost, List.length_cons] at ih ⊢
    omega

/-- **What is taken comes out in the order it went in.** -/
theorem Replays.gets_sublist_puts (h : Replays log held) : (gets log).Sublist (puts log) := by
  rw [h.puts_eq]
  exact (gets_sublist log).trans (List.sublist_append_left _ _)

/-- **Every item put is taken, dropped or held.** -/
theorem Replays.length (h : Replays log held) :
    (puts log).length = (gets log).length + (drops log).length + held.length := by
  rw [h.puts_eq, List.length_append, departures_length]

/-- **A log without drops**: the items taken are all that left. -/
theorem Replays.puts_of_drops_nil (h : Replays log held) (hd : drops log = []) : puts log = gets log ++ held := by
  have hlen : (gets log).length = (departures log).length := by rw [departures_length, hd, List.length_nil, Nat.add_zero]
  rw [h.puts_eq, (gets_sublist log).eq_of_length hlen]

end Fifo
