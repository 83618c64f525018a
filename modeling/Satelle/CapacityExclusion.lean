import Satelle.Lib.Holding
import Satelle.CapacitySteps

/-! What holds of the slot in every interleaving of calls. The invariant is kept
because of the effect of a step, not because of the program counter. -/
namespace Satelle.CapacityExclusion
open Lib Host CapacitySteps

variable {Reply : Type}

/-! ## The invariant -/

/-- The slot and the threads agree: what is in the slot is what exactly one
thread has there, and every entry has been led by exactly one thread. -/
structure Excluded (system : System Reply) : Prop where
  owners : Held (fun id => (system.threads id).bind owns)
    fun operation => system.capacity.active = some operation
  leaders : Held (fun id => (system.threads id).bind leads)
    fun entry => entry < system.capacity.entries.length
  fits : ∀ id thread, system.threads id = some thread → Fits system.capacity thread

variable {capacity after : OperationCapacity Reply} {thread next : Thread Reply}
  {system : System Reply} {id : ThreadId}

/-- A thread that leads an entry is about it. -/
theorem about_of_leads (led : leads thread = some entry) : aboutEntry thread = some entry := by
  cases thread with
  | execute request token pc => cases pc <;> first | exact led | cases led
  | exclusive | cancel => cases led

theorem new_excluded : Excluded (System.new : System Reply) where
  owners := .empty fun _ active => nomatch active
  leaders := .empty Nat.not_lt_zero
  fits := fun _ _ runs => nomatch runs

theorem threads_moved :
    (system.moved id move).threads other = some thread ↔
      (other = id ∧ move.2 = thread) ∨ (other ≠ id ∧ system.threads other = some thread) := by
  by_cases same : other = id
  · simp [System.moved, same]
  · simp [System.moved, same]

theorem holders_moved (holds : Thread Reply → Option α) :
    (fun other => ((system.moved id move).threads other).bind holds) =
      Function.update (fun other => (system.threads other).bind holds) id (holds move.2) := by
  funext other
  by_cases same : other = id
  · simp [System.moved, same]
  · simp [System.moved, same]

/-- The other threads keep what they know. -/
private theorem fits_kept (fits : Fits capacity thread) (kept : Kept capacity after answer mover)
    (other : ∀ entry, leads mover = some entry → leads thread ≠ some entry) :
    Fits after thread := by
  intro entry about
  obtain ⟨inFlight, found, asking, knows⟩ := fits entry about
  obtain ⟨later, there, written⟩ := kept entry inFlight found
  refine ⟨later, there, by rw [asking, written.request], ?_⟩
  rintro request token pc rfl
  have known := knows request token pc rfl
  by_cases own : leads mover = some entry
  · have unled : ledEntry pc = none := by
      cases led : ledEntry pc with
      | none => rfl
      | some place =>
        have same : aboutEntry (.execute request token pc) = some place := about_of_leads led
        cases same.symm.trans about
        exact absurd led (other _ own)
    exact known.later unled written
  · exact known.quiet (written.unled own)

/-- A thread that moves keeps the invariant. -/
theorem moved_excluded (excluded : Excluded system) (runs : system.threads id = some thread)
    (effect : Effect system.capacity answer thread after next) :
    Excluded (system.moved id (after, next)) where
  owners := by
    have mine : (system.threads id).bind owns = owns thread := by rw [runs]; rfl
    have held : ∀ operation, owns thread = some operation →
        system.capacity.active = some operation :=
      fun operation own => excluded.owners.only id operation (mine.trans own)
    rw [holders_moved]
    refine excluded.owners.update id (owns next) ?_ ?_
    all_goals
      intro operation
      simp only [mine]
      cases effect.slot <;> grind [System.moved]
  leaders := by
    have mine : (system.threads id).bind leads = leads thread := by rw [runs]; rfl
    have bound : ∀ entry, leads thread = some entry → entry < system.capacity.entries.length :=
      fun entry led => excluded.leaders.only id entry (mine.trans led)
    rw [holders_moved]
    refine excluded.leaders.update id (leads next) ?_ ?_
    all_goals
      intro entry
      simp only [mine]
      cases effect.slot <;> grind [System.moved]
  fits := by
    intro other otherThread there
    rcases threads_moved.mp there with ⟨_, rfl⟩ | ⟨different, old⟩
    · exact effect.fits
    · refine fits_kept (excluded.fits other otherThread old) effect.kept ?_
      intro entry led otherLed
      refine different (excluded.leaders.sole id other entry ?_ ?_)
      · simpa [runs] using led
      · simpa [old] using otherLed

/-- A call that has just been made has no entry. -/
theorem idle_of_fresh (fresh : thread.fresh = true) :
    owns thread = none ∧ leads thread = none ∧ aboutEntry thread = none := by
  cases thread with
  | execute request token pc | exclusive pc =>
    cases pc <;> first | exact ⟨rfl, rfl, rfl⟩ | cases fresh
  | cancel request pc => cases pc <;> first | exact ⟨rfl, rfl, rfl⟩ | cases fresh

/-! ## Runs -/

/-- The action with which a thread takes a step. -/
def turn (id : ThreadId) : Option (Answer Reply) → Action Reply
  | none => .advance id
  | some answer => .resume id answer

/-- What an action does to the system. -/
inductive Performed (system : System Reply) : Action Reply → System Reply → Prop where
  | called {id : ThreadId} {thread : Thread Reply} (unused : system.threads id = none)
      (fresh : thread.fresh = true) :
      Performed system (.call id thread) (system.moved id (system.capacity, thread))
  | moved {id : ThreadId} {thread after next} (runs : system.threads id = some thread)
      (stepped : Stepped system.capacity answer thread after next) :
      Performed system (turn id answer) (system.moved id (after, next))
  | token : Performed system (.token token action)
      { system with capacity := system.capacity.setToken token cancellation }

theorem performed_of_perform {after : System Reply}
    (performed : system.perform action = some after) : Performed system action after := by
  cases action with
  | call id thread =>
    simp only [System.perform, Option.ite_none_right_eq_some] at performed
    obtain ⟨⟨unused, fresh⟩, made⟩ := performed
    cases made
    exact .called unused fresh
  | advance id =>
    obtain ⟨thread, runs, stepped⟩ := Option.bind_eq_some_iff.mp performed
    obtain ⟨⟨_, _⟩, step, made⟩ := Option.map_eq_some_iff.mp stepped
    cases made
    refine .moved runs (show Stepped system.capacity none _ _ _ from ?_)
    cases thread with
    | execute | exclusive | cancel =>
      obtain ⟨⟨_, _⟩, taken, made⟩ := Option.map_eq_some_iff.mp step
      cases made
      constructor
      exact taken
  | resume id answer =>
    obtain ⟨thread, runs, stepped⟩ := Option.bind_eq_some_iff.mp performed
    obtain ⟨⟨_, _⟩, step, made⟩ := Option.map_eq_some_iff.mp stepped
    cases made
    refine .moved runs (show Stepped system.capacity (some answer) _ _ _ from ?_)
    cases thread with
    | execute | exclusive =>
      obtain ⟨⟨_, _⟩, taken, made⟩ := Option.map_eq_some_iff.mp step
      cases made
      constructor
      exact taken
    | cancel =>
      obtain ⟨_, taken, made⟩ := Option.map_eq_some_iff.mp step
      cases made
      exact .cancelResume taken
  | token token action =>
    obtain ⟨cancellation, _, made⟩ := Option.map_eq_some_iff.mp performed
    cases made
    exact .token

theorem Excluded.effect (excluded : Excluded system) (runs : system.threads id = some thread)
    (stepped : Stepped system.capacity answer thread after next) :
    Effect system.capacity answer thread after next :=
  stepped.effect (excluded.fits id thread runs)

theorem token_excluded (excluded : Excluded system) :
    Excluded { system with capacity := system.capacity.setToken token cancellation } :=
  ⟨excluded.owners, excluded.leaders, excluded.fits⟩

theorem Performed.excluded {after : System Reply} (performed : Performed system action after)
    (excluded : Excluded system) : Excluded after := by
  cases performed with
  | @called id thread unused fresh =>
    obtain ⟨unowned, unled, idle⟩ := idle_of_fresh fresh
    have same {α} {holds : Thread Reply → Option α} (nothing : holds thread = none) :
        Function.update (fun other => (system.threads other).bind holds) id (holds thread) =
          fun other => (system.threads other).bind holds := by
      rw [Function.update_eq_self_iff, unused, nothing]
      rfl
    refine ⟨?_, ?_, ?_⟩
    · rw [holders_moved, same unowned]
      exact excluded.owners
    · rw [holders_moved, same unled]
      exact excluded.leaders
    · intro other otherThread there
      rcases threads_moved.mp there with ⟨_, rfl⟩ | ⟨_, before⟩
      · exact fits_of_idle idle
      · exact excluded.fits other otherThread before
  | moved runs stepped => exact moved_excluded excluded runs (excluded.effect runs stepped)
  | token => exact token_excluded excluded

theorem reachable_excluded (reachable : system.Reachable) : Excluded system := by
  induction reachable with
  | new => exact new_excluded
  | step _ performed ih => exact (performed_of_perform performed).excluded ih

/-! ## Single flight -/

/-- The slot has an operation of the same base identity and another digest. -/
def Conflicting (capacity : OperationCapacity Reply) (request : OperationRequest) : Prop :=
  ∃ entry inFlight, capacity.active = some (.idempotent entry) ∧
    capacity.entries[entry]? = some inFlight ∧ inFlight.request.sameBase request = true ∧
    inFlight.request ≠ request

/-- The call is about to decide on the slot. -/
def deciding : Thread Reply → Bool
  | .execute _ _ .probing | .execute _ _ (.installing _) => true
  | .cancel _ .probing | .cancel _ (.advancing _) => true
  | _ => false

/-- The call was answered with a conflict. -/
def refused : Thread Reply → Prop
  | .execute _ _ (.returned result) => result = .error .idempotencyConflict
  | .cancel _ (.returned result) => result = .error .idempotencyConflict
  | _ => False

/-- What the slot is for. -/
structure SingleFlight (system : System Reply) : Prop where
  /-- One operation runs at a time. -/
  exclusion : ∀ id thread other otherThread, system.threads id = some thread →
    running thread = true → system.threads other = some otherThread →
    running otherThread = true → other = id
  /-- Every entry has one leader. -/
  leader : ∀ entry inFlight, system.capacity.entries[entry]? = some inFlight →
    ∃! id, ∃ thread, system.threads id = some thread ∧ leads thread = some entry ∧
      asks thread = some inFlight.request
  /-- The operation of an entry starts to run only when the entry is installed. -/
  once : ∀ action after, system.perform action = some after →
    ∀ id request token entry, after.threads id = some (.execute request token (.leading entry)) →
      system.threads id = some (.execute request token (.leading entry)) ∨
        entry = system.capacity.entries.length
  /-- A stored result never changes. -/
  written : ∀ action after, system.perform action = some after →
    ∀ (entry : EntryId) (inFlight : InFlight Reply) (result : SharedResult Reply),
      system.capacity.entries[entry]? = some inFlight → inFlight.result = some result →
      ∃ later : InFlight Reply, after.capacity.entries[entry]? = some later ∧ later.request = inFlight.request ∧
        later.result = some result
  /-- A leader that has returned has stored its result. -/
  stored : ∀ id request token entry result,
    system.threads id = some (.execute request token (.retired entry (some result))) →
    ∃ inFlight, system.capacity.entries[entry]? = some inFlight ∧ inFlight.request = request ∧
      inFlight.result = some result
  /-- A leader that has panicked has stored an error. -/
  aborted : ∀ id request token entry,
    system.threads id = some (.execute request token (.retired entry none)) →
    ∃ inFlight, system.capacity.entries[entry]? = some inFlight ∧ inFlight.request = request ∧
      inFlight.result = some (.error terminatedEarly)
  /-- A follower receives the stored result, unless the lock of the result was
  poisoned. -/
  received : ∀ id request token entry result,
    system.threads id = some (.execute request token (.joined entry result)) →
    ∃ inFlight, system.capacity.entries[entry]? = some inFlight ∧ inFlight.request = request ∧
      (inFlight.result = some result ∨ inFlight.poisoned = true ∧
        (result = .error resultPoisoned ∨ result = .error waitPoisoned))
  /-- It is poisoned only by a panic inside `persist_cancellation`. -/
  poisoned : ∀ action after, system.perform action = some after →
    ∀ (entry : EntryId) (later : InFlight Reply),
      after.capacity.entries[entry]? = some later → later.poisoned = true →
      (∃ inFlight : InFlight Reply, system.capacity.entries[entry]? = some inFlight ∧ inFlight.poisoned = true) ∨
      ∃ id request token result outcome, action = .resume id .panic ∧
        system.threads id = some (.execute request token (.persisting entry result outcome))
  /-- A call comes to have the slot only by installing its operation. -/
  installed : ∀ action after, system.perform action = some after →
    ∀ id thread operation, after.threads id = some thread → owns thread = some operation →
      (∃ before, system.threads id = some before ∧ owns before = some operation) ∨
      system.capacity.active = none ∧ after.capacity.active = some operation
  /-- Only the call that has the slot clears it. -/
  cleared : ∀ action after, system.perform action = some after →
    ∀ operation, system.capacity.active = some operation →
      after.capacity.active ≠ some operation →
      after.capacity.active = none ∧
        ∃ id thread next, system.threads id = some thread ∧ owns thread = some operation ∧
          after.threads id = some next ∧ owns next = none
  /-- What is in the slot belongs to a call that is not over. -/
  held : ∀ operation, system.capacity.active = some operation →
    ∃ id thread, system.threads id = some thread ∧ owns thread = some operation ∧
      ended thread = false
  /-- A leader that is over has left the slot. -/
  left : ∀ id thread entry, system.threads id = some thread → leads thread = some entry →
    ended thread = true → system.capacity.active ≠ some (.idempotent entry)
  /-- A request in conflict with the slot has no part in it, and a call that
  decides for it is refused, or looks again. -/
  conflict : ∀ request, Conflicting system.capacity request →
    ∀ id thread, system.threads id = some thread → asks thread = some request →
      owns thread = none ∧
      (∀ entry, aboutEntry thread = some entry →
        system.capacity.active ≠ some (.idempotent entry)) ∧
      (deciding thread = true → ∃ after next,
        thread.advance system.capacity = some (after, next) ∧
          (refused next ∨ next.fresh = true))

theorem matchingEntry_conflicting (conflicting : Conflicting capacity request) :
    capacity.matchingEntry request = .error .idempotencyConflict := by
  obtain ⟨entry, inFlight, active, found, base, different⟩ := conflicting
  simp [OperationCapacity.matchingEntry, active, found, base, different]

theorem deciding_refused (conflicting : Conflicting capacity request)
    (asking : asks thread = some request) (decides : deciding thread = true) :
    ∃ after next, thread.advance capacity = some (after, next) ∧
      (refused next ∨ next.fresh = true) := by
  have found := matchingEntry_conflicting conflicting
  cases thread with
  | execute own token pc =>
    cases asking
    cases pc with
    | probing =>
      refine ⟨capacity, .execute request token (.returned (.error .idempotencyConflict)), ?_, ?_⟩
      · simp only [Thread.advance, ExecutePc.advance, found, Option.map_some]
      · exact .inl rfl
    | installing observed =>
      by_cases current : capacity.generation = observed
      · refine ⟨capacity, .execute request token (.returned (.error .idempotencyConflict)), ?_, ?_⟩
        · simp [Thread.advance, ExecutePc.advance, found, current]
        · exact .inl rfl
      · refine ⟨capacity, .execute request token .probing, ?_, ?_⟩
        · simp [Thread.advance, ExecutePc.advance, current]
        · exact .inr rfl
    | resolving | resolved | leading | finishing | settling | persisting | clearing | releasing
    | unwinding | unwindClearing | unwindReleasing | following | returned | joined | retired
    | panicked => cases decides
  | exclusive => cases asking
  | cancel own pc =>
    cases asking
    cases pc with
    | probing =>
      refine ⟨capacity, .cancel request (.returned (.error .idempotencyConflict)), ?_, ?_⟩
      · simp only [Thread.advance, CancelPc.advance, found, Option.map_some]
      · exact .inl rfl
    | advancing =>
      refine ⟨capacity.advanceGeneration,
        .cancel request (.returned (.error .idempotencyConflict)), ?_, ?_⟩
      · simp only [Thread.advance, CancelPc.advance, found, Option.map_some]
      · exact .inl rfl
    | resolving | comparing | persistingCancelled | requesting | gating | persistingPending
    | awaiting | inspecting | resolvingAdmitted | persistingFinal | completedResolving
    | completedPersisting | returned | panicked => cases decides

section Performed
variable {action : Action Reply} {after : System Reply} (performed : Performed system action after)
include performed

theorem performed_leading
    (runs : after.threads id = some (.execute request token (.leading entry))) :
    system.threads id = some (.execute request token (.leading entry)) ∨
      entry = system.capacity.entries.length := by
  cases performed with
  | called _ fresh =>
    rcases threads_moved.mp runs with ⟨_, rfl⟩ | ⟨_, before⟩
    · cases fresh
    · exact .inl before
  | moved _ stepped =>
    rcases threads_moved.mp runs with ⟨_, same⟩ | ⟨_, before⟩
    · cases same
      right
      cases stepped with
      | executeAdvance step =>
        unfold ExecutePc.advance ExecutePc.finished at step
        repeat' split at step
        all_goals cases step
        rfl
      | executeResume step =>
        unfold ExecutePc.resume at step
        split at step <;> cases step
    · exact .inl before
  | token => exact .inl runs

variable (excluded : Excluded system)
include excluded

theorem Performed.poisoned (found : after.capacity.entries[entry]? = some later)
    (poisoned : later.poisoned = true) :
    (∃ inFlight, system.capacity.entries[entry]? = some inFlight ∧ inFlight.poisoned = true) ∨
      ∃ id request token result outcome, action = .resume id .panic ∧
        system.threads id = some (.execute request token (.persisting entry result outcome)) := by
  cases performed with
  | called | token => exact .inl ⟨later, found, poisoned⟩
  | @moved _ id _ _ _ runs stepped =>
    rcases (excluded.effect runs stepped).back found with ⟨inFlight, there, written⟩ | ⟨_, clean⟩
    · rcases written.poisoned with same | ⟨_, rfl, request, token, result, outcome, rfl⟩
      · exact .inl ⟨inFlight, there, same.symm.trans poisoned⟩
      · exact .inr ⟨id, request, token, result, outcome, rfl, runs⟩
    · rw [clean] at poisoned
      cases poisoned

/-- The steps of the other threads, and of tokens, leave the slot to its owner. -/
theorem Performed.kept {entry : EntryId} (found : system.capacity.entries[entry]? = some inFlight) :
    ∃ later, after.capacity.entries[entry]? = some later ∧ later.request = inFlight.request ∧
      ∀ result, inFlight.result = some result → later.result = some result := by
  cases performed with
  | called | token => exact ⟨inFlight, found, rfl, fun _ => id⟩
  | moved runs stepped =>
    obtain ⟨later, there, written⟩ := (excluded.effect runs stepped).kept entry inFlight found
    exact ⟨later, there, written.request, fun _ => written.stays⟩

theorem Performed.installed
    (there : after.threads id = some thread) (own : owns thread = some operation) :
    (∃ before, system.threads id = some before ∧ owns before = some operation) ∨
      system.capacity.active = none ∧ after.capacity.active = some operation := by
  cases performed with
  | called _ fresh =>
    rcases threads_moved.mp there with ⟨_, rfl⟩ | ⟨_, before⟩
    · rw [(idle_of_fresh fresh).1] at own
      cases own
    · exact .inl ⟨thread, before, own⟩
  | token => exact .inl ⟨thread, there, own⟩
  | moved runs stepped =>
    rcases threads_moved.mp there with ⟨rfl, rfl⟩ | ⟨_, before⟩
    · cases (excluded.effect runs stepped).slot with
      | same _ _ same => exact .inl ⟨_, runs, same ▸ own⟩
      | installed free _ _ active _ _ isOwn | installedExclusive free _ active _ isOwn =>
        rw [isOwn] at own
        cases own
        exact .inr ⟨free, active⟩
      | cleared _ _ _ left =>
        rw [left] at own
        cases own
    · exact .inl ⟨thread, before, own⟩

theorem Performed.cleared (held : system.capacity.active = some operation)
    (gone : after.capacity.active ≠ some operation) :
    after.capacity.active = none ∧
      ∃ id thread next, system.threads id = some thread ∧ owns thread = some operation ∧
        after.threads id = some next ∧ owns next = none := by
  cases performed with
  | called | token => exact absurd held gone
  | @moved _ id _ _ next runs stepped =>
    cases (excluded.effect runs stepped).slot with
    | same active => exact absurd (active.trans held) gone
    | installed free | installedExclusive free =>
      rw [free] at held
      cases held
    | @cleared mine own active _ left =>
      by_cases same : system.capacity.active = some mine
      · rw [if_pos same] at active
        cases same.symm.trans held
        exact ⟨active, id, _, next, runs, own, threads_moved.mpr (.inl ⟨rfl, rfl⟩), left⟩
      · rw [if_neg same] at active
        exact absurd (active.trans held) gone

end Performed

/-- What a call that has been given or has left a result knows of its entry. -/
theorem Excluded.known (excluded : Excluded system)
    (runs : system.threads id = some (.execute request token pc))
    (about : aboutEntry (.execute request token pc) = some entry) :
    ∃ inFlight, system.capacity.entries[entry]? = some inFlight ∧ inFlight.request = request ∧
      Knows pc inFlight := by
  obtain ⟨inFlight, found, asking, knows⟩ := excluded.fits id _ runs entry about
  cases asking
  exact ⟨inFlight, found, rfl, knows _ _ _ rfl⟩

/-- In every interleaving of any number of calls, the slot gives mutual
exclusion and single flight. -/
theorem operation_capacity_single_flight {system : System Reply} (reachable : system.Reachable) :
    SingleFlight system := by
  have excluded := reachable_excluded reachable
  constructor
  case exclusion =>
    intro id thread other otherThread there runs there' runs'
    obtain ⟨operation, own⟩ := owns_of_running runs
    obtain ⟨operation', own'⟩ := owns_of_running runs'
    have mine := Option.bind_eq_some_iff.mpr ⟨thread, there, own⟩
    have others := Option.bind_eq_some_iff.mpr ⟨otherThread, there', own'⟩
    cases (excluded.owners.only id _ mine).symm.trans (excluded.owners.only other _ others)
    exact excluded.owners.sole id other _ mine others
  case leader =>
    intro entry inFlight found
    obtain ⟨bound, _⟩ := List.getElem?_eq_some_iff.mp found
    obtain ⟨id, mine⟩ := excluded.leaders.held entry bound
    obtain ⟨thread, there, led⟩ := Option.bind_eq_some_iff.mp mine
    obtain ⟨_, same, asking, _⟩ := excluded.fits id thread there entry (about_of_leads led)
    cases same.symm.trans found
    refine ⟨id, ⟨thread, there, led, asking⟩, ?_⟩
    rintro other ⟨otherThread, otherThere, otherLed, _⟩
    exact excluded.leaders.sole id other entry mine
      (Option.bind_eq_some_iff.mpr ⟨otherThread, otherThere, otherLed⟩)
  case once =>
    intro action after performed id request token entry runs
    exact performed_leading (performed_of_perform performed) runs
  case written =>
    intro action after performed entry inFlight result found stored
    obtain ⟨later, there, request, stays⟩ := (performed_of_perform performed).kept excluded found
    exact ⟨later, there, request, stays result stored⟩
  case stored =>
    intro id request token entry result runs
    obtain ⟨inFlight, found, asking, knows⟩ := excluded.known runs rfl
    exact ⟨inFlight, found, asking, knows.1⟩
  case aborted =>
    intro id request token entry runs
    exact excluded.known runs rfl
  case received =>
    intro id request token entry result runs
    exact excluded.known runs rfl
  case poisoned =>
    intro action after performed entry later found poisoned
    exact (performed_of_perform performed).poisoned excluded found poisoned
  case installed =>
    intro action after performed id thread operation there own
    exact (performed_of_perform performed).installed excluded there own
  case cleared =>
    intro action after performed operation held gone
    exact (performed_of_perform performed).cleared excluded held gone
  case held =>
    intro operation active
    obtain ⟨id, mine⟩ := excluded.owners.held operation active
    obtain ⟨thread, there, own⟩ := Option.bind_eq_some_iff.mp mine
    refine ⟨id, thread, there, own, ?_⟩
    cases past : ended thread with
    | false => rfl
    | true =>
      rw [not_owns_of_ended past] at own
      cases own
  case left =>
    intro id thread entry there led past active
    obtain ⟨other, others⟩ := excluded.owners.held _ active
    obtain ⟨otherThread, otherThere, own⟩ := Option.bind_eq_some_iff.mp others
    cases excluded.leaders.sole id other entry (Option.bind_eq_some_iff.mpr ⟨thread, there, led⟩)
      (Option.bind_eq_some_iff.mpr ⟨otherThread, otherThere, leads_of_owns own⟩)
    cases there.symm.trans otherThere
    rw [not_owns_of_ended past] at own
    cases own
  case conflict =>
    intro request conflicting id thread there asking
    have apart : ∀ entry, aboutEntry thread = some entry →
        system.capacity.active ≠ some (.idempotent entry) := by
      intro entry about active
      obtain ⟨place, inFlight, isActive, found, _, different⟩ := conflicting
      cases isActive.symm.trans active
      obtain ⟨_, same, asks, _⟩ := excluded.fits id thread there entry about
      cases same.symm.trans found
      cases asks.symm.trans asking
      exact different rfl
    refine ⟨?_, apart, deciding_refused conflicting asking⟩
    obtain ⟨place, _, active, _⟩ := conflicting
    cases own : owns thread with
    | none => rfl
    | some operation =>
      cases (excluded.owners.only id operation
        (Option.bind_eq_some_iff.mpr ⟨thread, there, own⟩)).symm.trans active
      exact absurd active (apart place (about_of_leads (leads_of_owns own)))

/-! ## A poisoned result -/

/-- The actions one after the other. -/
def performAll (system : System Reply) : List (Action Reply) → Option (System Reply)
  | [] => some system
  | action :: rest => (system.perform action).bind (performAll · rest)

theorem reachable_performAll {after : System Reply} (reachable : system.Reachable)
    (performed : performAll system actions = some after) : after.Reachable := by
  induction actions generalizing system with
  | nil =>
    cases performed
    exact reachable
  | cons action rest ih =>
    obtain ⟨next, first, others⟩ := Option.bind_eq_some_iff.mp performed
    exact ih (.step reachable first) others

def sampleRequest : OperationRequest := ⟨"local", .run, "key", "digest", 1, 1⟩

/-- Two calls with one request: the first leads, the second follows. -/
def sampleFlight : List (Action Unit) :=
  [.call 0 (.execute sampleRequest 0 .probing), .advance 0,
    .resume 0 (.durable (.ok .missing)), .advance 0, .advance 0,
    .call 1 (.execute sampleRequest 1 .probing), .advance 1]

/-- The operation is asked to stop, and `persist_cancellation` panics. -/
def poisoningFlight : List (Action Unit) :=
  sampleFlight ++ [.token 0 .request, .resume 0 (.result (.ok (.stop ()))), .advance 0, .advance 0,
    .resume 0 .panic, .advance 0, .advance 0, .advance 0, .advance 1]

/-- What the thread was given as a follower, and what is stored for it. -/
def followed (system : System Reply) (id : ThreadId) :
    Option (SharedResult Reply × Option (SharedResult Reply)) :=
  match system.threads id with
  | some (.execute _ _ (.joined entry result)) =>
    (system.capacity.entries[entry]?).map fun inFlight => (result, inFlight.result)
  | _ => none

/-- A follower may be given something else than what the leader has stored. -/
theorem follower_of_poisoned_result :
    ∃ system : System Unit, system.Reachable ∧ ∃ id request token entry inFlight result stored,
      system.threads id = some (.execute request token (.joined entry result)) ∧
      system.capacity.entries[entry]? = some inFlight ∧ inFlight.result = some stored ∧
      result ≠ stored := by
  have run : ((performAll System.new poisoningFlight).bind (followed · 1)) =
      some (.error resultPoisoned, some (.error terminatedEarly)) := by decide
  obtain ⟨system, performed, given⟩ := Option.bind_eq_some_iff.mp run
  unfold followed at given
  split at given
  · rename_i request token entry own runs
    obtain ⟨inFlight, found, made⟩ := Option.map_eq_some_iff.mp given
    obtain ⟨rfl, stored⟩ := Prod.mk.inj made
    refine ⟨system, reachable_performAll .new performed, 1, request, token, entry, inFlight, _, _,
      runs, found, stored, ?_⟩
    decide
  · cases given

/-- A slot in use, with its leader and a follower. -/
theorem operation_capacity_single_flight_sample :
    ∃ system : System Unit, system.Reachable ∧
      system.capacity.active = some (.idempotent 0) ∧ SingleFlight system := by
  have run : (performAll System.new sampleFlight).map (·.capacity.active) =
      some (some (.idempotent 0)) := by decide
  obtain ⟨system, performed, active⟩ := Option.map_eq_some_iff.mp run
  have reachable : system.Reachable := reachable_performAll .new performed
  exact ⟨system, reachable, active, operation_capacity_single_flight reachable⟩

end Satelle.CapacityExclusion
