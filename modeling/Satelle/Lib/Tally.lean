import Mathlib

/-! Counting live things. Every beginning and every end is counted as well, so two readings
that agree in that number have seen the same, and so has everybody in between. -/
namespace Satelle.Lib

/-- How many are live, and how often one has begun or ended. -/
structure Tally where
  active : Nat
  generation : Nat
  deriving DecidableEq

namespace Tally

def begun (tally : Tally) : Tally := ⟨tally.active + 1, tally.generation + 1⟩

def ended (tally : Tally) : Tally := ⟨tally.active - 1, tally.generation + 1⟩

def touched (tally : Tally) : Tally := ⟨tally.active, tally.generation + 1⟩

/-- A later state of a tally. -/
def Later (a b : Tally) : Prop :=
  a.generation ≤ b.generation ∧ (a.generation = b.generation → a = b)

theorem Later.refl (a : Tally) : Later a a := ⟨le_rfl, fun _ => rfl⟩

theorem Later.trans (first : Later a b) (second : Later b c) : Later a c := by
  refine ⟨first.1.trans second.1, fun same => ?_⟩
  have middle : a.generation = b.generation := le_antisymm first.1 (same ▸ second.1)
  exact (first.2 middle).trans (second.2 (middle.symm.trans same))

theorem later_of_lt (less : a.generation < b.generation) : Later a b :=
  ⟨less.le, fun same => absurd same less.ne⟩

/-- Nothing has happened between two states of one generation. -/
theorem Later.between (first : Later a b) (second : Later b c)
    (same : a.generation = c.generation) : a = b :=
  first.2 (le_antisymm first.1 (same ▸ second.1))

end Tally

end Satelle.Lib
