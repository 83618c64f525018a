import Satelle.CapacityExclusion
import Satelle.Host.DurableAdmission

/-! Where the results that calls return come from. Nothing is made up in the
slot: what a call says of its request it was told by a closure, by itself or
through the entry it has led or followed. -/
namespace Satelle.CapacityFlow
open Host CapacitySteps CapacityExclusion

variable {Reply : Type}

/-- What a call that cancels carries. -/
def cancelSays : CancelPc Reply → Option (Except SatelleError AdmissionCancellationOutcome)
  | .advancing (.admitted outcome) => some outcome.intoAdmissionCancellation
  | .advancing .cancelled | .advancing .missing => some (.ok .cancelled)
  | .advancing .recoveryPending => some (.ok .recoveryPending)
  | .returned result => some result
  | _ => none

/-- What may be said of a request: errors, that it waits for recovery, and
whatever the closures tell. -/
structure Vocabulary (good : SharedResult Reply → Prop)
    (goodCancel : Except SatelleError AdmissionCancellationOutcome → Prop) : Prop where
  error : ∀ error, good (.error error)
  cancelError : ∀ error, goodCancel (.error error)
  pending : goodCancel (.ok .recoveryPending)
  passed : ∀ outcome, good (.ok outcome) → goodCancel outcome.intoAdmissionCancellation

section Flow
variable {good : SharedResult Reply → Prop}
  {goodCancel : Except SatelleError AdmissionCancellationOutcome → Prop} {id : ThreadId}

variable {capacity after : OperationCapacity Reply} {thread next : Thread Reply}
  {system : System Reply}

/-- What the call carries may be said. -/
def Speaks (good : SharedResult Reply → Prop)
    (goodCancel : Except SatelleError AdmissionCancellationOutcome → Prop) : Thread Reply → Prop
  | .execute _ _ pc => ∀ result, executeSays pc = some result → good result
  | .cancel _ pc => ∀ result, cancelSays pc = some result → goodCancel result
  | .exclusive _ => True

/-- So may the results of all entries of the request. -/
def Holds (good : SharedResult Reply → Prop) (capacity : OperationCapacity Reply)
    (request : OperationRequest) : Prop :=
  ∀ (entry : EntryId) (inFlight : InFlight Reply) (result : SharedResult Reply),
    capacity.entries[entry]? = some inFlight → inFlight.request = request →
    inFlight.result = some result → good result

/-- What a closure tells may be said. A closure that persists a cancellation does
not tell that nothing is known. -/
def Tells (good : SharedResult Reply → Prop)
    (goodCancel : Except SatelleError AdmissionCancellationOutcome → Prop) (closure : Closure) :
    Answer Reply → Prop
  | .durable (.ok (.admitted outcome)) => good (.ok outcome)
  | .durable (.ok .cancelled) => goodCancel (.ok .cancelled)
  | .durable (.ok .missing) => closure = .resolve
  | .result result => good result
  | .durable (.ok .recoveryPending) | .durable (.error _) | .exclusive _ | .panic => True

/-! ## Steps of a call -/

/-- What `wait` gives may be said. -/
private theorem poll_good {inFlight : InFlight Reply} (vocabulary : Vocabulary good goodCancel)
    (polled : inFlight.poll waited = some result)
    (stored : ∀ result, inFlight.result = some result → good result) : good result := by
  unfold InFlight.poll at polled
  split at polled
  · cases polled
    exact vocabulary.error _
  · exact stored result polled

/-- The results of the entry a call is about are those of its own request. -/
private theorem holds_about (holds : Holds good capacity request) (fits : Fits capacity thread)
    (asking : asks thread = some request) (about : aboutEntry thread = some entry)
    (found : capacity.entries[entry]? = some inFlight) :
    ∀ result, inFlight.result = some result → good result := by
  intro result stored
  obtain ⟨_, there, own, _⟩ := fits entry about
  cases there.symm.trans found
  cases own.symm.trans asking
  exact holds entry inFlight result found rfl stored

section
variable (vocabulary : Vocabulary good goodCancel)
include vocabulary

theorem executeAdvance_speaks {next}
    (holds : Holds good capacity request) (fits : Fits capacity (.execute request token pc))
    (speaks : Speaks good goodCancel (.execute request token pc))
    (moved : pc.advance capacity request token = some (after, next)) :
    Speaks good goodCancel (.execute request token next) := by
  cases pc with
  | following entry waited =>
    simp only [ExecutePc.advance] at moved
    repeat' split at moved
    all_goals cases moved
    · rintro result ⟨⟩
      rename_i found _ _ _ polled
      exact poll_good vocabulary polled (holds_about holds fits rfl rfl found)
    · rintro result ⟨⟩
  | probing | resolving | resolved | installing | leading | finishing | settling | persisting
  | clearing | releasing | unwinding | unwindClearing | unwindReleasing | returned | joined
  | retired | panicked =>
    simp only [ExecutePc.advance, ExecutePc.finished] at moved
    repeat' split at moved
    all_goals cases moved
    all_goals rintro result ⟨⟩
    all_goals first
      | exact vocabulary.error _
      | exact speaks _ rfl

theorem executeResume_speaks {next}
    (told : ∀ closure, pc.calling = some closure → Tells good goodCancel closure answer)
    (speaks : Speaks good goodCancel (.execute request token pc))
    (moved : pc.resume capacity answer = some (after, next)) :
    Speaks good goodCancel (.execute request token next) := by
  unfold ExecutePc.resume at moved
  split at moved
  case h_1 observed replayed =>
    cases moved
    cases replayed with
    | admitted outcome =>
      rintro result ⟨⟩
      exact told _ rfl
    | missing | cancelled | recoveryPending => rintro result ⟨⟩
  all_goals cases moved
  all_goals rintro result ⟨⟩
  all_goals first
    | exact vocabulary.error _
    | exact speaks _ rfl
    | exact told _ rfl

theorem cancelAdvance_speaks {next}
    (holds : Holds good capacity request) (fits : Fits capacity (.cancel request pc))
    (speaks : Speaks good goodCancel (.cancel request pc))
    (moved : pc.advance capacity request = some (after, next)) :
    Speaks good goodCancel (.cancel request next) := by
  cases pc with
  | requesting entry =>
    simp only [CancelPc.advance, CancelPc.registered] at moved
    repeat' split at moved
    all_goals cases moved
    all_goals rintro result ⟨⟩
    rename_i found _ _ outcome held
    exact vocabulary.passed outcome (holds_about holds fits rfl rfl found _ held)
  | awaiting entry waited =>
    simp only [CancelPc.advance] at moved
    repeat' split at moved
    all_goals cases moved
    · rename_i found _ _ result polled
      have heard := poll_good vocabulary polled (holds_about holds fits rfl rfl found)
      cases result with
      | error => rintro result ⟨⟩
      | ok outcome =>
        rintro result ⟨⟩
        exact vocabulary.passed outcome heard
    · rintro result ⟨⟩
  | probing | resolving | comparing | persistingCancelled | advancing | gating | persistingPending
  | inspecting | resolvingAdmitted | persistingFinal | completedResolving | completedPersisting
  | returned | panicked =>
    simp only [CancelPc.advance] at moved
    repeat' split at moved
    all_goals cases moved
    all_goals rintro result ⟨⟩
    all_goals first
      | exact vocabulary.cancelError _
      | exact speaks _ rfl

theorem cancelResume_speaks {pc next : CancelPc Reply}
    (told : ∀ closure, pc.calling = some closure → Tells good goodCancel closure answer)
    (moved : pc.resume answer = some next) : Speaks good goodCancel (.cancel request next) := by
  cases answer with
  | durable answer =>
    cases answer with
    | error error =>
      obtain ⟨_, _, rfl⟩ := Option.map_eq_some_iff.mp moved
      rintro result ⟨⟩
      exact vocabulary.cancelError error
    | ok outcome =>
      change pc.answered outcome = some next at moved
      unfold CancelPc.answered at moved
      split at moved
      case h_5 =>
        cases moved
        cases outcome with
        | missing => cases told _ rfl
        | admitted outcome =>
          rintro result ⟨⟩
          exact vocabulary.passed outcome (told _ rfl)
        | cancelled =>
          rintro result ⟨⟩
          exact told _ rfl
        | recoveryPending =>
          rintro result ⟨⟩
          exact vocabulary.pending
      all_goals cases moved
      all_goals rintro result ⟨⟩
      all_goals first
        | exact vocabulary.passed _ (told _ rfl)
        | exact told _ rfl
        | exact vocabulary.pending
        | exact vocabulary.cancelError _
        | cases told _ rfl
        | (cases ‹CancellationFinish› <;> first
            | exact vocabulary.passed _ (told _ rfl)
            | exact told _ rfl
            | cases told _ rfl)
  | panic =>
    obtain ⟨_, _, rfl⟩ := Option.map_eq_some_iff.mp moved
    rintro result ⟨⟩
  | result | exclusive => cases moved

end

/-! ## Steps of the slot -/

/-- All that is said of a request may be said. -/
structure Truthful (good : SharedResult Reply → Prop)
    (goodCancel : Except SatelleError AdmissionCancellationOutcome → Prop)
    (request : OperationRequest) (system : System Reply) : Prop where
  threads : ∀ id thread, system.threads id = some thread → asks thread = some request →
    Speaks good goodCancel thread
  entries : Holds good system.capacity request

theorem Truthful.mono
    (truthful : Truthful good goodCancel request system) (wider : ∀ result, good result → more result)
    (widerCancel : ∀ result, goodCancel result → moreCancel result) :
    Truthful more moreCancel request system where
  threads := by
    intro id thread there asking
    have speaks := truthful.threads id thread there asking
    cases thread with
    | execute => exact fun result said => wider result (speaks result said)
    | cancel => exact fun result said => widerCancel result (speaks result said)
    | exclusive => trivial
  entries := fun entry inFlight result found own stored =>
    wider result (truthful.entries entry inFlight result found own stored)

/-- One call has moved. -/
private theorem moved_truthful (truthful : Truthful good goodCancel request system)
    (speaks : asks next = some request → Speaks good goodCancel next)
    (holds : Holds good after request) :
    Truthful good goodCancel request (system.moved id (after, next)) where
  threads := by
    intro other otherThread there asking
    rcases threads_moved.mp there with ⟨_, rfl⟩ | ⟨_, before⟩
    · exact speaks asking
    · exact truthful.threads other otherThread before asking
  entries := holds

private theorem fresh_speaks (fresh : thread.fresh = true) : Speaks good goodCancel thread := by
  cases thread with
  | execute request token pc | cancel request pc =>
    cases pc <;> first | (rintro result ⟨⟩; done) | cases fresh
  | exclusive => trivial

/-- What a step stores is what the call carries, or an error. -/
private theorem stored_good (vocabulary : Vocabulary good goodCancel)
    (holds : Holds good capacity request) (fits : Fits capacity thread)
    (effect : Effect capacity answer thread after next)
    (speaks : asks thread = some request → Speaks good goodCancel thread) :
    Holds good after request := by
  intro entry later result found own stored
  rcases effect.back found with ⟨inFlight, there, written⟩ | ⟨blank, _⟩
  · have before : ∀ first, inFlight.result = some first → good first :=
      fun first => holds entry inFlight first there (written.request.symm.trans own)
    rcases written.result with same | ⟨led, made, makes, same⟩
    · exact before result (same.symm.trans stored)
    · cases first : inFlight.result with
      | some first =>
        -- the first result stays
        cases (written.stays first).symm.trans stored
        exact before _ first
      | none =>
        rw [first, Option.none_or, stored] at same
        cases same
        obtain ⟨_, isThere, asking, _⟩ := fits entry (about_of_leads led)
        cases there.symm.trans isThere
        rcases makes with ⟨error, rfl⟩ | ⟨_, _, _, rfl, said⟩
        · exact vocabulary.error error
        · exact speaks (by rw [asking, ← own, written.request]) result said
  · rw [blank] at stored
    cases stored

/-- A closure only tells what may be said. -/
theorem performed_truthful {after : System Reply} (vocabulary : Vocabulary good goodCancel)
    (excluded : Excluded system) (truthful : Truthful good goodCancel request system)
    (told : ∀ id answer thread closure, action = .resume id answer →
      system.threads id = some thread → thread.closure = some (request, closure) →
      Tells good goodCancel closure answer)
    (performed : system.perform action = some after) : Truthful good goodCancel request after := by
  cases performed_of_perform performed with
  | called _ fresh => exact moved_truthful truthful (fun _ => fresh_speaks fresh) truthful.entries
  | token => exact ⟨truthful.threads, truthful.entries⟩
  | @moved _ id thread _ _ there stepped =>
    have fits := excluded.fits id thread there
    have speaks := truthful.threads id thread there
    refine moved_truthful truthful ?_
      (stored_good vocabulary truthful.entries fits (stepped.effect fits) speaks)
    intro asking
    cases stepped with
    | executeAdvance step =>
      cases asking
      exact executeAdvance_speaks vocabulary truthful.entries fits (speaks rfl) step
    | executeResume step =>
      cases asking
      refine executeResume_speaks vocabulary (fun closure calling => ?_) (speaks rfl) step
      exact told id _ _ closure rfl there (by simp [Thread.closure, calling])
    | exclusiveAdvance | exclusiveResume => trivial
    | cancelAdvance step =>
      cases asking
      exact cancelAdvance_speaks vocabulary truthful.entries fits (speaks rfl) step
    | cancelResume step =>
      cases asking
      refine cancelResume_speaks vocabulary (fun closure calling => ?_) step
      exact told id _ _ closure rfl there (by simp [Thread.closure, calling])

end Flow

end Satelle.CapacityFlow
