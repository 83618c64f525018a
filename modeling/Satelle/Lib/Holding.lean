import Mathlib

/-! Things that are held, each of them by one holder. -/
namespace Satelle.Lib

/-- Every live thing has one holder, and nothing else is held. -/
structure Held (holds : ι → Option α) (live : α → Prop) : Prop where
  only : ∀ i thing, holds i = some thing → live thing
  held : ∀ thing, live thing → ∃ i, holds i = some thing
  sole : ∀ i j thing, holds i = some thing → holds j = some thing → j = i

theorem Held.empty (none : ∀ thing, ¬live thing) :
    Held (fun _ : ι => Option.none) live where
  only := fun _ _ holds => nomatch holds
  held := fun thing isLive => absurd isLive (none thing)
  sole := fun _ _ _ holds => nomatch holds

/-- A holder may drop what it has, and take what nobody else has. -/
theorem Held.update [DecidableEq ι] {live later : α → Prop}
    (held : Held holds live) (i : ι) (new : Option α)
    (free : ∀ thing, new = some thing → live thing → holds i = some thing)
    (lives : ∀ thing, later thing ↔ new = some thing ∨ live thing ∧ holds i ≠ some thing) :
    Held (Function.update holds i new) later where
  only := by
    intro j thing holding
    refine (lives thing).mpr ?_
    by_cases own : j = i
    · subst own
      rw [Function.update_self] at holding
      exact .inl holding
    · rw [Function.update_of_ne own] at holding
      exact .inr ⟨held.only j thing holding, fun mine => own (held.sole i j thing mine holding)⟩
  held := by
    intro thing isLater
    rcases (lives thing).mp isLater with taken | ⟨isLive, left⟩
    · exact ⟨i, by rw [Function.update_self, taken]⟩
    · obtain ⟨j, holding⟩ := held.held thing isLive
      have other : j ≠ i := by
        rintro rfl
        exact left holding
      exact ⟨j, by rw [Function.update_of_ne other, holding]⟩
  sole := by
    have taken : ∀ j thing, new = some thing → holds j = some thing → j = i :=
      fun j thing isNew holding =>
        held.sole i j thing (free thing isNew (held.only j thing holding)) holding
    intro j k thing first second
    by_cases isJ : j = i <;> by_cases isK : k = i
    · exact isK.trans isJ.symm
    · rw [isJ, Function.update_self] at first
      rw [Function.update_of_ne isK] at second
      exact absurd (taken k thing first second) isK
    · rw [isK, Function.update_self] at second
      rw [Function.update_of_ne isJ] at first
      exact absurd (taken j thing second first) isJ
    · rw [Function.update_of_ne isJ] at first
      rw [Function.update_of_ne isK] at second
      exact held.sole j k thing first second

end Satelle.Lib
