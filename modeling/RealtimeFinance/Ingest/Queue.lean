/-!
# Queue — `ingest.core.queue`

An `asyncio.Queue` with a policy for a full one.  `put` answers `none` where the caller waits; a waiter tries again when
a `get` has made room.
-/
namespace Ingest

inductive DropPolicy
  | block
  | dropOldest
  deriving DecidableEq

structure BoundedTopicQueue (α : Type) where
  items : List α
  maxsize : Nat
  policy : DropPolicy
  dropped : Nat

variable {α : Type}

def BoundedTopicQueue.new (maxsize : Nat) (policy : DropPolicy) : BoundedTopicQueue α :=
  { items := [], maxsize, policy, dropped := 0 }

def BoundedTopicQueue.qsize (q : BoundedTopicQueue α) : Nat := q.items.length

def BoundedTopicQueue.full (q : BoundedTopicQueue α) : Bool := decide (q.maxsize ≠ 0 ∧ q.maxsize ≤ q.qsize)

def BoundedTopicQueue.put (q : BoundedTopicQueue α) (item : α) : Option (BoundedTopicQueue α) :=
  if !q.full then some { q with items := q.items ++ [item] }
  else match q.policy with
    | .block      => none
    | .dropOldest => some { q with items := q.items.tail ++ [item], dropped := q.dropped + 1 }

def BoundedTopicQueue.get (q : BoundedTopicQueue α) : Option (α × BoundedTopicQueue α) :=
  match q.items with
  | []           => none
  | item :: rest => some (item, { q with items := rest })

/-- **A blocking put appends or waits.** -/
theorem BoundedTopicQueue.put_block {q q' : BoundedTopicQueue α} {item : α} (hp : q.policy = .block)
    (h : q.put item = some q') : q'.items = q.items ++ [item] ∧ q'.policy = .block := by
  unfold BoundedTopicQueue.put at h
  split at h
  · cases h
    exact ⟨rfl, hp⟩
  · rw [hp] at h
    cases h

theorem BoundedTopicQueue.put_eq_none {q : BoundedTopicQueue α} {item : α} (hp : q.policy = .block) :
    q.put item = none ↔ q.full = true := by
  unfold BoundedTopicQueue.put
  rw [hp]
  cases q.full <;> simp

theorem BoundedTopicQueue.get_items {q q' : BoundedTopicQueue α} {item : α} (h : q.get = some (item, q')) :
    q.items = item :: q'.items ∧ q'.policy = q.policy := by
  unfold BoundedTopicQueue.get at h
  split at h
  · cases h
  · rename_i hitems
    cases h
    exact ⟨hitems, rfl⟩

end Ingest
