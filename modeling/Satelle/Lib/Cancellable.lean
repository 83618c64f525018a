import Mathlib

/-! A request that is performed at most once and can be cancelled before. A
cancellation holds for a while; a request whose cancellation is still being
sorted out is pending, for as long as that takes. Times are any linear order. -/
namespace Satelle.Lib

inductive Mark where
  | cancelled | pending
  deriving DecidableEq, Repr

/-- What is known of a request: whether it was performed, and how it was marked
and until when. -/
structure Slot (τ : Type u) where
  performed : Bool
  mark : Option (Mark × τ)

namespace Slot
variable {τ : Type u} [LinearOrder τ]

/-- The mark that counts at a time: only a cancellation expires. -/
def visible (slot : Slot τ) (now : τ) : Option Mark :=
  slot.mark.bind fun (mark, limit) =>
    if mark = .cancelled ∧ limit ≤ now then none else some mark

/-- What can happen to a request at a time. A mark made then lasts until
`expiry now`. -/
inductive Step (expiry : τ → τ) (now : τ) (slot : Slot τ) : Slot τ → Prop where
  | same : Step expiry now slot slot
  | perform (first : slot.performed = false) (free : slot.visible now = none) :
      Step expiry now slot { slot with performed := true }
  | mark (first : slot.performed = false) (free : slot.visible now = none) (made : Mark) :
      Step expiry now slot { slot with mark := some (made, expiry now) }
  | settle (first : slot.performed = false) (held : slot.visible now = some .pending) :
      Step expiry now slot { slot with mark := some (.cancelled, expiry now) }
  | suspend (first : slot.performed = false) (found : slot.mark = some (.cancelled, limit)) :
      Step expiry now slot { slot with mark := some (.pending, limit) }

/-- Part of what is known is forgotten; only a cancellation is. -/
structure Fade (slot after : Slot τ) : Prop where
  performed : after.performed = true → slot.performed = true
  mark : after.mark = slot.mark ∨
    after.mark = none ∧ ∃ limit, slot.mark = some (.cancelled, limit)

/-- What happens next, at a time that is not before the last. -/
inductive Move (expiry : τ → τ) (fading : Prop) : Slot τ × τ → Slot τ × τ → Prop where
  | step (forward : now ≤ next) (step : Step expiry next slot after) :
      Move expiry fading (slot, now) (after, next)
  | fade (may : fading) (fade : Fade slot after) : Move expiry fading (slot, now) (after, now)

def Run (expiry : τ → τ) (fading : Prop) : Slot τ × τ → Slot τ × τ → Prop :=
  Relation.ReflTransGen (Move expiry fading)

variable {slot after : Slot τ} {now later deadline : τ} {expiry : τ → τ} {fading : Prop}

theorem visible_eq_none :
    slot.visible now = none ↔
      ∀ mark limit, slot.mark = some (mark, limit) → mark = .cancelled ∧ limit ≤ now := by
  unfold visible
  cases slot.mark with
  | none => simp
  | some marked =>
    obtain ⟨mark, limit⟩ := marked
    simp

theorem visible_eq_some {mark : Mark} :
    slot.visible now = some mark ↔
      ∃ limit, slot.mark = some (mark, limit) ∧ (mark = .cancelled → now < limit) := by
  unfold visible
  cases slot.mark with
  | none => simp
  | some marked =>
    obtain ⟨found, limit⟩ := marked
    simp only [Option.bind_some, Option.some.injEq, Prod.mk.injEq]
    by_cases expired : found = .cancelled ∧ limit ≤ now
    · rw [if_pos expired]
      constructor
      · intro impossible
        cases impossible
      · rintro ⟨_, ⟨rfl, rfl⟩, unexpired⟩
        exact absurd expired.2 (unexpired expired.1).not_ge
    · rw [if_neg expired, Option.some.injEq]
      constructor
      · rintro rfl
        refine ⟨limit, ⟨rfl, rfl⟩, fun isCancelled => ?_⟩
        exact lt_of_not_ge fun passed => expired ⟨isCancelled, passed⟩
      · rintro ⟨_, ⟨rfl, rfl⟩, _⟩
        rfl

/-! ## A performed request has no mark that counts -/

/-- From a time on, a performed request has no mark that counts; and no mark
lasts longer than one made at that time. -/
structure Sound (expiry : τ → τ) (slot : Slot τ) (now : τ) : Prop where
  exclusive : slot.performed = true → slot.visible now = none
  bounded : ∀ mark limit, slot.mark = some (mark, limit) → limit ≤ expiry now

theorem Sound.free (sound : Sound expiry slot now) (le : now ≤ later) :
    slot.performed = true → slot.visible later = none := by
  intro performed
  rw [visible_eq_none]
  intro mark limit found
  obtain ⟨isCancelled, passed⟩ := visible_eq_none.mp (sound.exclusive performed) mark limit found
  exact ⟨isCancelled, passed.trans le⟩

theorem Step.sound (increasing : Monotone expiry) (step : Step expiry later slot after)
    (le : now ≤ later) (sound : Sound expiry slot now) : Sound expiry after later := by
  have bounded : ∀ mark limit, slot.mark = some (mark, limit) → limit ≤ expiry later := by
    intro mark limit found
    exact (sound.bounded mark limit found).trans (increasing le)
  -- every other step is of a request that is not performed
  have unperformed : slot.performed = false → slot.performed = true →
      after.visible later = none := by
    intro first performed
    rw [first] at performed
    cases performed
  cases step with
  | same => exact ⟨sound.free le, bounded⟩
  | perform _ free => exact ⟨fun _ => free, bounded⟩
  | mark first | settle first =>
    refine ⟨unperformed first, ?_⟩
    rintro mark limit ⟨⟩
    exact le_refl _
  | suspend first found =>
    refine ⟨unperformed first, ?_⟩
    rintro mark limit ⟨⟩
    exact bounded _ _ found

theorem Fade.sound (fade : Fade slot after) (sound : Sound expiry slot now) :
    Sound expiry after now := by
  rcases fade.mark with same | ⟨gone, _⟩
  · refine ⟨fun performed => ?_, fun mark limit found => ?_⟩
    · have free := sound.exclusive (fade.performed performed)
      unfold visible at free ⊢
      rwa [same]
    · rw [same] at found
      exact sound.bounded mark limit found
  · refine ⟨fun _ => visible_eq_none.mpr ?_, ?_⟩
    all_goals
      intro mark limit found
      rw [gone] at found
      cases found

theorem Run.sound (increasing : Monotone expiry)
    (run : Run expiry fading start final) (sound : Sound expiry start.1 start.2) :
    Sound expiry final.1 final.2 := by
  induction run with
  | refl => exact sound
  | tail _ move ih =>
    cases move with
    | step forward step => exact step.sound increasing forward ih
    | fade _ fade => exact fade.sound ih

theorem Step.performed (step : Step expiry now slot after) (performed : slot.performed = true) :
    after.performed = true := by
  cases step with
  | same => exact performed
  | perform => rfl
  | mark | settle | suspend => exact performed

/-- A request with a mark that counts is not performed. -/
theorem Step.performed_of_visible {mark : Mark} (step : Step expiry now slot after)
    (seen : slot.visible now = some mark) (performed : after.performed = true) :
    slot.performed = true := by
  cases step with
  | same | mark | settle | suspend => exact performed
  | perform _ free =>
    rw [free] at seen
    cases seen

theorem Run.performed (lasting : ¬fading)
    (run : Run expiry fading start final) (performed : start.1.performed = true) :
    final.1.performed = true := by
  induction run with
  | refl => exact performed
  | tail _ move ih =>
    cases move with
    | step _ step => exact step.performed ih
    | fade may => exact absurd may lasting

/-! ## A cancellation lasts -/

/-- Until a deadline the request is not performed and has a mark that counts. A
mark that is made anew lasts longer. -/
structure Blocked (expiry : τ → τ) (deadline : τ) (slot : Slot τ) (now : τ) : Prop where
  renewed : deadline ≤ expiry now
  marked : now < deadline → slot.performed = false ∧
    ∃ mark limit, slot.mark = some (mark, limit) ∧ (mark = .cancelled → deadline ≤ limit)

/-- A mark that counts blocks the request until it expires. -/
theorem Sound.blocked (sound : Sound expiry slot now)
    (found : slot.mark = some (.cancelled, deadline)) (before : now < deadline) :
    Blocked expiry deadline slot now where
  renewed := sound.bounded _ _ found
  marked := by
    intro _
    refine ⟨Bool.eq_false_iff.mpr fun performed => ?_, _, _, found, fun _ => le_refl _⟩
    have passed := visible_eq_none.mp (sound.exclusive performed) _ _ found
    exact absurd passed.2 before.not_ge

theorem Blocked.visible (blocked : Blocked expiry deadline slot now) (le : now ≤ later)
    (before : later < deadline) : ∃ mark, slot.visible later = some mark := by
  obtain ⟨_, mark, limit, found, lasts⟩ := blocked.marked (le.trans_lt before)
  exact ⟨mark, visible_eq_some.mpr ⟨limit, found, fun isCancelled =>
    before.trans_le (lasts isCancelled)⟩⟩

theorem Step.blocked (increasing : Monotone expiry) (step : Step expiry later slot after)
    (le : now ≤ later) (blocked : Blocked expiry deadline slot now) :
    Blocked expiry deadline after later where
  renewed := blocked.renewed.trans (increasing le)
  marked := by
    intro before
    obtain ⟨first, mark, limit, found, lasts⟩ := blocked.marked (le.trans_lt before)
    obtain ⟨held, seen⟩ := blocked.visible le before
    cases step with
    | same => exact ⟨first, mark, limit, found, lasts⟩
    | perform _ free | mark _ free =>
      rw [free] at seen
      cases seen
    | settle =>
      exact ⟨first, .cancelled, _, rfl, fun _ => blocked.renewed.trans (increasing le)⟩
    | suspend => exact ⟨first, .pending, _, rfl, fun impossible => by cases impossible⟩

theorem Run.blocked (increasing : Monotone expiry) (lasting : ¬fading)
    (run : Run expiry fading start final) (blocked : Blocked expiry deadline start.1 start.2) :
    Blocked expiry deadline final.1 final.2 := by
  induction run with
  | refl => exact blocked
  | tail _ move ih =>
    cases move with
    | step forward step => exact step.blocked increasing forward ih
    | fade may => exact absurd may lasting

/-! ## While every mark counts -/

/-- A performed request has no mark at all. -/
def Apart (slot : Slot τ) : Prop := slot.performed = true → slot.mark = none

/-- Whatever is marked at this time counts. -/
def Standing (slot : Slot τ) (now : τ) : Prop := slot.visible now = none → slot.mark = none

theorem Step.apart (step : Step expiry now slot after) (standing : Standing slot now)
    (apart : Apart slot) : Apart after := by
  have unperformed : slot.performed = false → slot.performed = true → after.mark = none := by
    intro first performed
    rw [first] at performed
    cases performed
  cases step with
  | same => exact apart
  | perform _ free => exact fun _ => standing free
  | mark first | settle first | suspend first => exact unperformed first

omit [LinearOrder τ] in
theorem Fade.apart (fade : Fade slot after) (apart : Apart slot) : Apart after := by
  intro performed
  have unmarked := apart (fade.performed performed)
  rcases fade.mark with same | ⟨gone, _⟩
  · exact same.trans unmarked
  · exact gone

end Slot

end Satelle.Lib
