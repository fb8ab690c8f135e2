/-!
# Gaps — `ingest.core.gaps`

The tracker keeps one watermark a `(venue, venue_symbol)`, the greatest sequence it has seen, and reports what a jump
past it leaves out.  Whatever an observation moves the watermark past is the observed sequence or in the reported gap
(`observe_reached`).
-/
namespace Ingest

abbrev SequenceKey := String × String

structure Gap where
  venue : String
  venueSymbol : String
  lastSeen : Int
  nextSeen : Int
  deriving DecidableEq

def Gap.key (g : Gap) : SequenceKey := (g.venue, g.venueSymbol)

def Gap.missingCount (g : Gap) : Int := g.nextSeen - g.lastSeen - 1

def Gap.Contains (g : Gap) (i : Int) : Prop := g.lastSeen < i ∧ i < g.nextSeen

instance (g : Gap) (i : Int) : Decidable (g.Contains i) := inferInstanceAs (Decidable (_ ∧ _))

structure SequenceTracker where
  watermarks : SequenceKey → Option Int

def SequenceTracker.new : SequenceTracker := { watermarks := fun _ => none }

def SequenceTracker.set (t : SequenceTracker) (key : SequenceKey) (sequence : Int) : SequenceTracker :=
  { watermarks := fun k => if k = key then some sequence else t.watermarks k }

def SequenceTracker.observe (t : SequenceTracker) (venue venueSymbol : String) (sequence : Option Int) :
    SequenceTracker × Option Gap :=
  match sequence with
  | none          => (t, none)
  | some sequence =>
    match t.watermarks (venue, venueSymbol) with
    | none      => (t.set (venue, venueSymbol) sequence, none)
    | some last =>
      (t.set (venue, venueSymbol) (max sequence last),
        if sequence ≤ last + 1 then none
        else some { venue, venueSymbol, lastSeen := last, nextSeen := sequence })

@[simp] theorem SequenceTracker.set_self (t : SequenceTracker) (key : SequenceKey) (sequence : Int) :
    (t.set key sequence).watermarks key = some sequence := if_pos rfl

theorem SequenceTracker.set_of_ne (t : SequenceTracker) {key k : SequenceKey} (h : k ≠ key) (sequence : Int) :
    (t.set key sequence).watermarks k = t.watermarks k := if_neg h

variable (t : SequenceTracker) {key : SequenceKey}

theorem SequenceTracker.observe_of_ne (sequence : Option Int) {k : SequenceKey} (h : k ≠ key) :
    (t.observe key.1 key.2 sequence).1.watermarks k = t.watermarks k := by
  unfold SequenceTracker.observe
  cases sequence with
  | none => rfl
  | some sequence =>
    simp only
    cases t.watermarks key with
    | none => exact t.set_of_ne h sequence
    | some last => exact t.set_of_ne h _

theorem SequenceTracker.observe_first {sequence : Int} (h : t.watermarks key = none) :
    (t.observe key.1 key.2 (some sequence)).1.watermarks key = some sequence := by
  unfold SequenceTracker.observe
  simp only [h]
  exact t.set_self _ _

theorem SequenceTracker.observe_isSome (sequence : Option Int) :
    ((t.observe key.1 key.2 sequence).1.watermarks key).isSome = ((t.watermarks key).isSome || sequence.isSome) := by
  unfold SequenceTracker.observe
  cases sequence with
  | none => simp
  | some sequence => cases h : t.watermarks key <;> simp

/-- **What the watermark moves past is the observed sequence or in the gap.** -/
theorem SequenceTracker.observe_reached {sequence last w : Int} (h : t.watermarks key = some last)
    (hw : (t.observe key.1 key.2 (some sequence)).1.watermarks key = some w) {i : Int} (hi : i ≤ w) :
    i ≤ last ∨ i = sequence ∨
      ∃ g, (t.observe key.1 key.2 (some sequence)).2 = some g ∧ g.key = key ∧ g.Contains i := by
  unfold SequenceTracker.observe at hw ⊢
  simp only [h, SequenceTracker.set_self, Option.some.injEq] at hw ⊢
  by_cases hle : i ≤ last
  · exact Or.inl hle
  · by_cases heq : i = sequence
    · exact Or.inr (Or.inl heq)
    · have hjump : ¬ sequence ≤ last + 1 := by omega
      rw [if_neg hjump]
      refine Or.inr (Or.inr ⟨_, rfl, rfl, ?_⟩)
      show last < i ∧ i < sequence
      omega

end Ingest
