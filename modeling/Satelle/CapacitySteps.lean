import Satelle.Host.OperationCapacity

/-! What a step of a call can do to the slot and to its entries, whatever the
place of the call. -/
namespace Satelle.CapacitySteps
open Host

variable {Reply : Type}

/-! ## Places of a thread -/

/-- The entry a leader has in the slot. -/
def ownedEntry : ExecutePc Reply → Option EntryId
  | .leading entry | .finishing entry _ | .settling entry _ | .persisting entry _ _
  | .clearing entry _ | .unwinding entry | .unwindClearing entry => some entry
  | _ => none

/-- The entry a thread has led, also after it has left the slot. -/
def ledEntry : ExecutePc Reply → Option EntryId
  | .releasing entry _ | .unwindReleasing entry | .retired entry _ => some entry
  | pc => ownedEntry pc

/-- What the thread has in the slot. -/
def owns : Thread Reply → Option ActiveOperation
  | .execute _ _ pc => (ownedEntry pc).map .idempotent
  | .exclusive .running | .exclusive (.clearing _) | .exclusive .unwinding => some .exclusive
  | .exclusive _ | .cancel _ _ => none

def leads : Thread Reply → Option EntryId
  | .execute _ _ pc => ledEntry pc
  | .exclusive _ | .cancel _ _ => none

/-- The operation of the call is running. -/
def running : Thread Reply → Bool
  | .execute _ _ (.leading _) => true
  | .exclusive .running => true
  | _ => false

/-- The call is over. -/
def ended : Thread Reply → Bool
  | .execute _ _ (.returned _) | .execute _ _ (.joined _ _) | .execute _ _ (.retired _ _)
  | .execute _ _ .panicked => true
  | .exclusive (.returned _) | .exclusive .panicked => true
  | .cancel _ (.returned _) | .cancel _ .panicked => true
  | _ => false

def asks : Thread Reply → Option OperationRequest
  | .execute request _ _ => some request
  | .exclusive _ => none
  | .cancel request _ => some request

/-- What a call that executes carries. -/
def executeSays : ExecutePc Reply → Option (SharedResult Reply)
  | .resolved _ (.admitted outcome) => some (.ok outcome)
  | .finishing _ result | .settling _ result | .persisting _ result _ | .clearing _ result
  | .releasing _ result | .returned result | .joined _ result | .retired _ (some result) =>
    some result
  | _ => none

/-- A step of a thread, by itself or with the answer of a closure. -/
inductive Stepped (capacity : OperationCapacity Reply) :
    Option (Answer Reply) → Thread Reply → OperationCapacity Reply → Thread Reply → Prop where
  | executeAdvance (step : pc.advance capacity request token = some (after, next)) :
      Stepped capacity none (.execute request token pc) after (.execute request token next)
  | executeResume (step : pc.resume capacity answer = some (after, next)) :
      Stepped capacity (some answer) (.execute request token pc) after (.execute request token next)
  | exclusiveAdvance {pc : ExclusivePc Reply} (step : pc.advance capacity = some (after, next)) :
      Stepped capacity none (.exclusive pc) after (.exclusive next)
  | exclusiveResume {pc : ExclusivePc Reply}
      (step : pc.resume capacity answer = some (after, next)) :
      Stepped capacity (some answer) (.exclusive pc) after (.exclusive next)
  | cancelAdvance {pc : CancelPc Reply}
      (step : pc.advance capacity request = some (after, next)) :
      Stepped capacity none (.cancel request pc) after (.cancel request next)
  | cancelResume {pc : CancelPc Reply} (step : pc.resume answer = some next) :
      Stepped capacity (some answer) (.cancel request pc) capacity (.cancel request next)

variable {capacity after : OperationCapacity Reply} {thread next : Thread Reply}
  {answer : Option (Answer Reply)} {change : InFlight Reply → InFlight Reply}

theorem owns_of_running (runs : running thread = true) : ∃ active, owns thread = some active := by
  cases thread with
  | execute request token pc =>
    cases pc <;> first | exact ⟨_, rfl⟩ | cases runs
  | exclusive pc => cases pc <;> first | exact ⟨_, rfl⟩ | cases runs
  | cancel => cases runs

theorem not_owns_of_ended (past : ended thread = true) : owns thread = none := by
  cases thread with
  | execute request token pc | exclusive pc => cases pc <;> first | rfl | cases past
  | cancel => rfl

theorem leads_of_owns (own : owns thread = some (.idempotent entry)) :
    leads thread = some entry := by
  cases thread with
  | execute request token pc =>
    cases pc <;> cases own <;> rfl
  | exclusive pc => cases pc <;> cases own
  | cancel => cases own

/-! ## Entries -/

/-- A result that the call was told, or an error. -/
def Makes (thread : Thread Reply) (result : SharedResult Reply) : Prop :=
  (∃ error, result = .error error) ∨
    ∃ request token pc, thread = .execute request token pc ∧ executeSays pc = some result

/-- An entry before and after a step. Only the leader stores a result, and the first one
stays; the lock is poisoned by a panic of the leader inside `persist_cancellation`. -/
structure Written (answer : Option (Answer Reply)) (thread : Thread Reply) (entry : EntryId)
    (before after : InFlight Reply) : Prop where
  request : after.request = before.request
  result : after.result = before.result ∨ leads thread = some entry ∧
    ∃ result, Makes thread result ∧ after.result = before.result.or (some result)
  poisoned : after.poisoned = before.poisoned ∨ after.poisoned = true ∧ answer = some .panic ∧
    ∃ request token result outcome,
      thread = .execute request token (.persisting entry result outcome)

section Written
variable {before later : InFlight Reply} (written : Written answer thread entry before later)
include written

theorem Written.stays {result : SharedResult Reply} (stored : before.result = some result) : later.result = some result := by
  rcases written.result with same | ⟨_, other, _, same⟩ <;> simp [same, stored]

theorem Written.spoiled (poisoned : before.poisoned = true) : later.poisoned = true := by
  rcases written.poisoned with same | ⟨poisoned, _⟩
  · exact same.trans poisoned
  · exact poisoned

/-- Nothing is written to the entry of another call but its lock. -/
theorem Written.unled (other : leads thread ≠ some entry) :
    later.result = before.result ∧ later.poisoned = before.poisoned := by
  constructor
  · exact written.result.resolve_right fun own => other own.1
  · refine written.poisoned.resolve_right ?_
    rintro ⟨_, _, _, _, _, _, rfl⟩
    exact other rfl

end Written

theorem Written.refl (inFlight : InFlight Reply) : Written answer thread entry inFlight inFlight :=
  ⟨rfl, .inl rfl, .inl rfl⟩

theorem written_locked (locked : Bool) (inFlight : InFlight Reply) :
    Written answer thread entry inFlight { inFlight with locked := locked } :=
  ⟨rfl, .inl rfl, .inl rfl⟩

theorem written_completed (led : leads thread = some entry) (makes : Makes thread result)
    (inFlight : InFlight Reply) : Written answer thread entry inFlight
      { inFlight with result := inFlight.result.or (some result), locked := true } :=
  ⟨rfl, .inr ⟨led, result, makes, rfl⟩, .inl rfl⟩

/-- All entries stay. -/
def Kept (before after : OperationCapacity Reply) (answer : Option (Answer Reply))
    (thread : Thread Reply) : Prop :=
  ∀ entry inFlight, before.entries[entry]? = some inFlight →
    ∃ later, after.entries[entry]? = some later ∧ Written answer thread entry inFlight later

theorem kept_of_entries (same : after.entries = capacity.entries) :
    Kept capacity after answer thread :=
  fun _ inFlight found => ⟨inFlight, same ▸ found, .refl inFlight⟩

theorem getElem?_modified (entry place : EntryId) :
    (capacity.modify entry change).entries[place]? =
      (capacity.entries[place]?).map fun inFlight =>
        if entry = place then change inFlight else inFlight := by
  simp [OperationCapacity.modify, List.getElem?_modify]

theorem kept_modified (written : ∀ inFlight, Written answer thread entry inFlight (change inFlight))
    (entries : after.entries = (capacity.modify entry change).entries) :
    Kept capacity after answer thread := by
  intro place inFlight found
  rw [entries, getElem?_modified, found]
  by_cases same : entry = place
  · subst same
    exact ⟨change inFlight, by simp, written inFlight⟩
  · exact ⟨inFlight, by simp [same], .refl inFlight⟩

theorem length_modified :
    (capacity.modify entry change).entries.length = capacity.entries.length := by
  simp [OperationCapacity.modify]

theorem kept_installed : Kept capacity (capacity.install request token) answer thread := by
  intro entry inFlight found
  refine ⟨inFlight, ?_, .refl inFlight⟩
  obtain ⟨bound, _⟩ := List.getElem?_eq_some_iff.mp found
  simpa [OperationCapacity.install, List.getElem?_append_left bound] using found

/-! ## What a thread may rely on -/

/-- What a thread at this place knows of its entry. -/
def Knows : ExecutePc Reply → InFlight Reply → Prop
  | .leading _, inFlight | .finishing _ _, inFlight | .settling _ _, inFlight
  | .persisting _ _ _, inFlight => inFlight.result = none ∧ inFlight.poisoned = false
  | .unwinding _, inFlight => inFlight.result = none
  | .clearing _ result, inFlight | .releasing _ result, inFlight
  | .retired _ (some result), inFlight =>
    inFlight.result = some result ∧ inFlight.poisoned = false
  | .unwindClearing _, inFlight | .unwindReleasing _, inFlight | .retired _ none, inFlight =>
    inFlight.result = some (.error terminatedEarly)
  | .joined _ result, inFlight => inFlight.result = some result ∨
    inFlight.poisoned = true ∧ (result = .error resultPoisoned ∨ result = .error waitPoisoned)
  | _, _ => True

/-- What is known of an entry holds as long as nothing is written to it. -/
theorem Knows.quiet {before after : InFlight Reply} (knows : Knows pc before)
    (quiet : after.result = before.result ∧ after.poisoned = before.poisoned) : Knows pc after := by
  cases pc with
  | retired entry result => cases result <;> simpa only [Knows, quiet] using knows
  | probing | resolving | resolved | installing | following | returned | panicked => trivial
  | leading | joined | finishing | settling | persisting | clearing | releasing | unwinding
  | unwindClearing | unwindReleasing => simpa only [Knows, quiet] using knows

/-- What is known by a thread that does not lead the entry holds for ever. -/
theorem Knows.later {before after : InFlight Reply}
    (knows : Knows pc before) (unled : ledEntry pc = none)
    (written : Written answer thread entry before after) : Knows pc after := by
  cases pc with
  | joined entry result =>
    exact knows.imp written.stays fun ⟨poisoned, said⟩ => ⟨written.spoiled poisoned, said⟩
  | probing | resolving | resolved | installing | following | returned | panicked => trivial
  | leading | finishing | settling | persisting | clearing | releasing | unwinding | unwindClearing
  | unwindReleasing | retired => cases unled

/-- The entry a thread is about. -/
def aboutEntry : Thread Reply → Option EntryId
  | .execute _ _ (.following entry _) | .execute _ _ (.joined entry _) => some entry
  | .execute _ _ pc => ledEntry pc
  | .cancel _ (.requesting entry) | .cancel _ (.gating entry) | .cancel _ (.persistingPending entry)
  | .cancel _ (.awaiting entry _) | .cancel _ (.inspecting entry) => some entry
  | .cancel _ _ | .exclusive _ => none

/-- A thread is only ever about an entry of its own request. -/
def Fits (capacity : OperationCapacity Reply) (thread : Thread Reply) : Prop :=
  ∀ entry, aboutEntry thread = some entry →
    ∃ inFlight, capacity.entries[entry]? = some inFlight ∧ asks thread = some inFlight.request ∧
      ∀ request token pc, thread = .execute request token pc → Knows pc inFlight

/-! ## What a step does -/

/-- What a step of a thread does to the slot. -/
inductive SlotMove (before : OperationCapacity Reply) (thread : Thread Reply)
    (after : OperationCapacity Reply) (next : Thread Reply) : Prop where
  | same (active : after.active = before.active)
      (entries : after.entries.length = before.entries.length)
      (own : owns next = owns thread) (led : leads next = leads thread)
  | installed (free : before.active = none) (idle : owns thread = none)
      (unled : leads thread = none)
      (active : after.active = some (.idempotent before.entries.length))
      (entries : after.entries.length = before.entries.length + 1)
      (blank : ∀ inFlight, after.entries[before.entries.length]? = some inFlight →
        inFlight.result = none ∧ inFlight.poisoned = false)
      (own : owns next = some (.idempotent before.entries.length))
      (led : leads next = some before.entries.length)
  | installedExclusive (free : before.active = none) (idle : owns thread = none)
      (active : after.active = some .exclusive)
      (entries : after.entries.length = before.entries.length)
      (own : owns next = some .exclusive) (led : leads next = leads thread)
  | cleared (held : owns thread = some operation)
      (active : after.active = if before.active = some operation then none else before.active)
      (entries : after.entries.length = before.entries.length)
      (own : owns next = none) (led : leads next = leads thread)

/-- What a step of a thread can do. -/
structure Effect (before : OperationCapacity Reply) (answer : Option (Answer Reply))
    (thread : Thread Reply) (after : OperationCapacity Reply) (next : Thread Reply) : Prop where
  kept : Kept before after answer thread
  slot : SlotMove before thread after next
  fits : Fits after next

/-- An entry was there before, or is new. -/
theorem Effect.back (effect : Effect capacity answer thread after next)
    (found : after.entries[entry]? = some later) :
    (∃ inFlight, capacity.entries[entry]? = some inFlight ∧
      Written answer thread entry inFlight later) ∨
      later.result = none ∧ later.poisoned = false := by
  cases isBefore : capacity.entries[entry]? with
  | some inFlight =>
    obtain ⟨_, there, written⟩ := effect.kept entry inFlight isBefore
    cases there.symm.trans found
    exact .inl ⟨inFlight, rfl, written⟩
  | none =>
    have new := List.getElem?_eq_none_iff.mp isBefore
    obtain ⟨bound, _⟩ := List.getElem?_eq_some_iff.mp found
    cases effect.slot with
    | same _ entries | installedExclusive _ _ _ entries | cleared _ _ entries =>
      rw [entries] at bound
      exact absurd bound new.not_gt
    | installed _ _ _ _ entries blank =>
      have last : entry = capacity.entries.length :=
        Nat.le_antisymm (Nat.le_of_lt_succ (bound.trans_eq entries)) new
      exact .inr (blank later (last ▸ found))

theorem fits_of_idle (idle : aboutEntry thread = none) : Fits capacity thread := by
  intro entry about
  rw [idle] at about
  cases about

/-- A thread that stays with its entry. -/
private theorem fits_moved (fits : Fits capacity thread) (about : aboutEntry thread = some entry)
    (aboutNext : aboutEntry next = some entry) (asking : asks next = asks thread)
    (moves : ∀ inFlight, capacity.entries[entry]? = some inFlight →
      (∀ request token pc, thread = .execute request token pc → Knows pc inFlight) →
      ∃ later, after.entries[entry]? = some later ∧ later.request = inFlight.request ∧
        ∀ request token pc, next = .execute request token pc → Knows pc later) :
    Fits after next := by
  intro other isAbout
  rw [aboutNext] at isAbout
  cases isAbout
  obtain ⟨inFlight, found, same, knows⟩ := fits entry about
  obtain ⟨later, foundLater, sameLater, known⟩ := moves inFlight found knows
  exact ⟨later, foundLater, by rw [asking, same, sameLater], known⟩

/-- A step that neither takes nor leaves the slot and writes no entry. -/
private theorem effect_idle (active : after.active = capacity.active)
    (entries : after.entries = capacity.entries) (own : owns next = owns thread)
    (led : leads next = leads thread) (fits : Fits after next) :
    Effect capacity answer thread after next :=
  ⟨kept_of_entries entries, .same active (by rw [entries]) own led, fits⟩

/-- A step to a place that is about no entry. -/
private theorem effect_apart (own : owns next = owns thread) (led : leads next = leads thread)
    (idle : aboutEntry next = none) : Effect capacity answer thread capacity next :=
  effect_idle rfl rfl own led (fits_of_idle idle)

/-- A step to an entry that the thread is let in on. -/
private theorem effect_joins (matching : capacity.matchingEntry request = .ok (some entry))
    (active : after.active = capacity.active) (entries : after.entries = capacity.entries)
    (own : owns next = owns thread) (led : leads next = leads thread)
    (about : aboutEntry next = some entry) (asking : asks next = some request)
    (free : ∀ request token pc inFlight, next = .execute request token pc → Knows pc inFlight) :
    Effect capacity answer thread after next := by
  refine effect_idle active entries own led fun other isAbout => ?_
  rw [about] at isAbout
  cases isAbout
  unfold OperationCapacity.matchingEntry at matching
  split at matching
  · split at matching
    · cases matching
    · rename_i inFlight found
      split at matching
      · cases matching
      · split at matching
        · cases matching
        · rename_i same
          cases matching
          obtain rfl := not_not.mp same
          exact ⟨inFlight, entries ▸ found, asking, fun request token pc =>
            free request token pc inFlight⟩
  · cases matching
  · cases matching

/-- What `wait` gives is the result, unless the lock is poisoned. -/
theorem poll_knows {inFlight : InFlight Reply} (polled : inFlight.poll waited = some result) :
    inFlight.result = some result ∨
      inFlight.poisoned = true ∧ (result = .error resultPoisoned ∨ result = .error waitPoisoned) := by
  unfold InFlight.poll at polled
  split at polled
  · rename_i poisoned
    cases polled
    refine .inr ⟨poisoned, ?_⟩
    cases waited
    · exact .inl rfl
    · exact .inr rfl
  · exact .inl polled

section Execute
variable {request : OperationRequest} {token : TokenId} {entry : EntryId} {pc next : ExecutePc Reply}
  (fits : Fits capacity (.execute request token pc))
  (about : aboutEntry (.execute request token pc) = some entry)
  (aboutNext : aboutEntry (.execute request token next) = some entry)
include fits about aboutNext

/-- The leader writes to its entry. -/
private theorem effect_written
    (written : ∀ inFlight, Written answer (.execute request token pc) entry inFlight
      (change inFlight))
    (own : owns (.execute request token next) = owns (.execute request token pc))
    (led : ledEntry next = ledEntry pc)
    (knows : ∀ inFlight, Knows pc inFlight → Knows next (change inFlight)) :
    Effect capacity answer (.execute request token pc) (capacity.modify entry change)
      (.execute request token next) := by
  refine ⟨kept_modified written rfl, .same rfl length_modified own led, ?_⟩
  refine fits_moved fits about aboutNext rfl ?_
  intro inFlight found known
  refine ⟨change inFlight, by simp [getElem?_modified, found], (written inFlight).request, ?_⟩
  rintro _ _ _ ⟨⟩
  exact knows inFlight (known _ _ _ rfl)

private theorem fits_on (entries : after.entries = capacity.entries)
    (knows : ∀ inFlight, Knows pc inFlight → Knows next inFlight) :
    Fits after (.execute request token next) := by
  refine fits_moved fits about aboutNext rfl ?_
  intro inFlight found known
  refine ⟨inFlight, entries ▸ found, rfl, ?_⟩
  rintro _ _ _ ⟨⟩
  exact knows inFlight (known _ _ _ rfl)

/-- The leader leaves the slot. -/
private theorem effect_cleared (held : owns (.execute request token pc) = some (.idempotent entry))
    (own : owns (.execute request token next) = none) (led : ledEntry next = ledEntry pc)
    (knows : ∀ inFlight, Knows pc inFlight → Knows next inFlight) :
    Effect capacity answer (.execute request token pc) (capacity.finalizeAndClear entry)
      (.execute request token next) := by
  have entries : (capacity.finalizeAndClear entry).entries = capacity.entries := by
    unfold OperationCapacity.finalizeAndClear
    split <;> rfl
  refine ⟨kept_of_entries entries, .cleared held ?_ (by rw [entries]) own led,
    fits_on fits about aboutNext entries knows⟩
  unfold OperationCapacity.finalizeAndClear
  split <;> rfl

end Execute

theorem executeAdvance_effect {pc next : ExecutePc Reply}
    (fits : Fits capacity (.execute request token pc))
    (moved : pc.advance capacity request token = some (after, next)) :
    Effect capacity answer (.execute request token pc) after (.execute request token next) := by
  cases pc with
  | probing =>
    simp only [ExecutePc.advance] at moved
    split at moved
    · cases moved
      exact effect_apart rfl rfl rfl
    · rename_i entry matching
      cases moved
      refine effect_joins matching rfl rfl rfl rfl rfl rfl ?_
      rintro _ _ _ _ ⟨⟩
      trivial
    · cases moved
      exact effect_apart rfl rfl rfl
  | resolved observed replayed =>
    simp only [ExecutePc.advance] at moved
    split at moved
    · cases moved
      exact effect_apart rfl rfl rfl
    · split at moved <;>
      · cases moved
        exact effect_apart rfl rfl rfl
  | installing observed =>
    simp only [ExecutePc.advance] at moved
    split at moved
    · cases moved
      exact effect_apart rfl rfl rfl
    · split at moved
      · cases moved
        exact effect_apart rfl rfl rfl
      · rename_i entry matching
        cases moved
        refine effect_joins matching rfl rfl rfl rfl rfl rfl ?_
        rintro _ _ _ _ ⟨⟩
        trivial
      · split at moved
        · rename_i free
          cases moved
          refine ⟨kept_installed, .installed free rfl rfl rfl ?_ ?_ rfl rfl, ?_⟩
          · simp [OperationCapacity.install]
          · simp only [OperationCapacity.install, List.getElem?_concat_length]
            rintro _ ⟨⟩
            exact ⟨rfl, rfl⟩
          · rintro entry ⟨⟩
            refine ⟨⟨request, token, none, false, false⟩, ?_, rfl, ?_⟩
            · simp [OperationCapacity.install]
            · rintro _ _ _ ⟨⟩
              exact ⟨rfl, rfl⟩
        · cases moved
          exact effect_apart rfl rfl rfl
  | finishing entry result =>
    simp only [ExecutePc.advance] at moved
    split at moved
    · cases moved
    · split at moved
      · cases moved
      · rename_i inFlight found unlocked
        unfold ExecutePc.finished at moved
        split at moved
        iterate 3
          · cases moved
            exact effect_written fits rfl rfl (written_locked true) rfl rfl fun _ => id
        all_goals
          cases moved
          refine effect_written fits rfl rfl
            (written_completed rfl (.inr ⟨_, _, _, rfl, rfl⟩)) rfl rfl ?_
          rintro stored ⟨unset, clean⟩
          exact ⟨by simp [unset], clean⟩
  | settling entry result =>
    simp only [ExecutePc.advance] at moved
    split at moved
    · cases moved
    · cases moved
      exact effect_idle rfl rfl rfl rfl (fits_on fits rfl rfl rfl fun _ => id)
  | clearing entry result =>
    cases moved
    exact effect_cleared fits rfl rfl rfl rfl rfl fun _ => id
  | releasing entry result =>
    cases moved
    exact effect_written fits rfl rfl (written_locked false) rfl rfl fun _ => id
  | unwinding entry =>
    simp only [ExecutePc.advance] at moved
    split at moved
    · cases moved
    · split at moved
      · cases moved
      · cases moved
        refine effect_written fits rfl rfl (written_completed rfl (.inl ⟨_, rfl⟩)) rfl rfl ?_
        intro stored unset
        simp only [Knows] at unset ⊢
        simp [unset]
  | unwindClearing entry =>
    cases moved
    exact effect_cleared fits rfl rfl rfl rfl rfl fun _ => id
  | unwindReleasing entry =>
    cases moved
    exact effect_written fits rfl rfl (written_locked false) rfl rfl fun _ => id
  | following entry waited =>
    simp only [ExecutePc.advance] at moved
    split at moved
    · cases moved
    · rename_i inFlight found
      split at moved
      · cases moved
      · split at moved
        · rename_i result polled
          cases moved
          refine effect_idle rfl rfl rfl rfl (fits_moved fits rfl rfl rfl ?_)
          intro other there _
          cases found.symm.trans there
          refine ⟨inFlight, found, rfl, ?_⟩
          rintro _ _ _ ⟨⟩
          exact poll_knows polled
        · cases moved
          exact effect_idle rfl rfl rfl rfl (fits_on fits rfl rfl rfl fun _ _ => trivial)
  | resolving | leading | persisting | returned | joined | retired | panicked => cases moved

theorem executeResume_effect {answer : Answer Reply} {pc next : ExecutePc Reply}
    (fits : Fits capacity (.execute request token pc))
    (moved : pc.resume capacity answer = some (after, next)) :
    Effect capacity (some answer) (.execute request token pc) after
      (.execute request token next) := by
  unfold ExecutePc.resume at moved
  split at moved
  iterate 3
    · cases moved
      exact effect_apart rfl rfl rfl
  · cases moved
    exact effect_idle rfl rfl rfl rfl (fits_on fits rfl rfl rfl fun _ => id)
  · cases moved
    exact effect_idle rfl rfl rfl rfl (fits_on fits rfl rfl rfl fun _ knows => knows.1)
  · cases moved
    refine effect_written fits rfl rfl
      (written_completed rfl (.inr ⟨_, _, _, rfl, rfl⟩)) rfl rfl ?_
    rintro stored ⟨unset, clean⟩
    exact ⟨by simp [unset], clean⟩
  · cases moved
    refine effect_written fits rfl rfl (written_completed rfl (.inl ⟨_, rfl⟩)) rfl rfl ?_
    rintro stored ⟨unset, clean⟩
    exact ⟨by simp [unset], clean⟩
  · cases moved
    refine effect_written fits rfl rfl (fun _ => ?_) rfl rfl fun _ knows => knows.1
    exact ⟨rfl, .inl rfl, .inr ⟨rfl, rfl, _, _, _, _, rfl⟩⟩
  · cases moved

theorem exclusiveAdvance_effect {pc next : ExclusivePc Reply}
    (moved : pc.advance capacity = some (after, next)) :
    Effect capacity answer (.exclusive pc) after (.exclusive next) := by
  have cleared : ∀ {pc next : ExclusivePc Reply}, owns (.exclusive pc) = some .exclusive →
      owns (.exclusive next) = none →
      Effect capacity answer (.exclusive pc) capacity.clearExclusive (.exclusive next) := by
    intro pc next held left
    have entries : capacity.clearExclusive.entries = capacity.entries := by
      unfold OperationCapacity.clearExclusive
      split <;> rfl
    refine ⟨kept_of_entries entries, .cleared held ?_ (by rw [entries]) left rfl, fits_of_idle rfl⟩
    unfold OperationCapacity.clearExclusive
    split <;> rfl
  cases pc with
  | entering =>
    simp only [ExclusivePc.advance] at moved
    split at moved
    · cases moved
      exact effect_apart rfl rfl rfl
    · rename_i free
      cases moved
      rw [Bool.not_eq_true, Option.isSome_eq_false_iff, Option.isNone_iff_eq_none] at free
      exact ⟨kept_of_entries rfl, .installedExclusive free rfl rfl rfl rfl rfl, fits_of_idle rfl⟩
  | clearing result | unwinding =>
    cases moved
    exact cleared rfl rfl
  | running | returned | panicked => cases moved

/-! A canceller never has the slot, and writes no entry but its lock. -/

section Cancel
variable {request : OperationRequest} {entry : EntryId} {pc next : CancelPc Reply}
  (fits : Fits capacity (.cancel request pc))
  (about : aboutEntry (.cancel request pc) = some entry)
  (aboutNext : aboutEntry (Thread.cancel request next) = some entry)
include fits about aboutNext

private theorem fits_cancel (kept : Kept capacity after answer (.cancel request pc)) :
    Fits after (.cancel request next) := by
  refine fits_moved fits about aboutNext rfl ?_
  intro inFlight found _
  obtain ⟨later, there, written⟩ := kept entry inFlight found
  refine ⟨later, there, written.request, ?_⟩
  rintro _ _ _ ⟨⟩

private theorem fits_waiting : Fits capacity (.cancel request next) :=
  fits_cancel fits about aboutNext (kept_of_entries rfl : Kept capacity capacity none _)

private theorem effect_locked (locked : Bool) (active : after.active = capacity.active)
    (entries : after.entries =
      (capacity.modify entry fun inFlight => { inFlight with locked := locked }).entries) :
    Effect capacity answer (.cancel request pc) after (.cancel request next) := by
  have kept : Kept capacity after answer (.cancel request pc) :=
    kept_modified (written_locked locked) entries
  exact ⟨kept, .same active (by rw [entries, length_modified]) rfl rfl,
    fits_cancel fits about aboutNext kept⟩

end Cancel

theorem cancelAdvance_effect {pc next : CancelPc Reply}
    (fits : Fits capacity (.cancel request pc))
    (moved : pc.advance capacity request = some (after, next)) :
    Effect capacity answer (.cancel request pc) after (.cancel request next) := by
  cases pc with
  | probing =>
    simp only [CancelPc.advance] at moved
    split at moved
    · cases moved
      exact effect_apart rfl rfl rfl
    · rename_i entry matching
      cases moved
      refine effect_joins matching rfl rfl rfl rfl rfl rfl ?_
      rintro _ _ _ _ ⟨⟩
    · cases moved
      exact effect_apart rfl rfl rfl
  | comparing observed =>
    simp only [CancelPc.advance] at moved
    split at moved <;>
    · cases moved
      exact effect_apart rfl rfl rfl
  | advancing persisted =>
    simp only [CancelPc.advance] at moved
    split at moved
    · cases moved
      exact effect_idle rfl rfl rfl rfl (fits_of_idle rfl)
    · rename_i entry matching
      cases moved
      refine effect_joins matching rfl rfl rfl rfl rfl rfl ?_
      rintro _ _ _ _ ⟨⟩
    · split at moved <;>
      · cases moved
        exact effect_idle rfl rfl rfl rfl (fits_of_idle rfl)
  | requesting entry =>
    simp only [CancelPc.advance] at moved
    split at moved
    · cases moved
    · split at moved
      · cases moved
      · unfold CancelPc.registered at moved
        split at moved
        · cases moved
          exact effect_apart rfl rfl rfl
        · cases moved
          exact effect_apart rfl rfl rfl
        · cases moved
          exact effect_locked fits rfl rfl true rfl rfl
  | gating entry =>
    simp only [CancelPc.advance] at moved
    split at moved
    · cases moved
    · split at moved
      · cases moved
      · split at moved <;>
        · cases moved
          exact effect_locked fits rfl rfl false rfl rfl
  | awaiting entry waited =>
    simp only [CancelPc.advance] at moved
    split at moved
    · cases moved
    · split at moved
      · cases moved
      · split at moved
        · cases moved
          refine effect_idle rfl rfl rfl rfl ?_
          unfold CancelPc.awaited
          split
          · exact fits_of_idle rfl
          · exact fits_waiting fits rfl rfl
        · cases moved
          exact effect_idle rfl rfl rfl rfl (fits_waiting fits rfl rfl)
  | inspecting entry =>
    simp only [CancelPc.advance] at moved
    split at moved
    · cases moved
    · split at moved <;>
      · cases moved
        exact effect_apart rfl rfl rfl
  | resolving | persistingCancelled | persistingPending | resolvingAdmitted | persistingFinal
  | completedResolving | completedPersisting | returned | panicked => cases moved

theorem cancelResume_effect {pc next : CancelPc Reply} (fits : Fits capacity (.cancel request pc))
    (moved : pc.resume told = some next) :
    Effect capacity answer (.cancel request pc) capacity (.cancel request next) := by
  refine effect_idle rfl rfl rfl rfl ?_
  unfold CancelPc.resume at moved
  split at moved
  · unfold CancelPc.answered at moved
    split at moved
    all_goals cases moved
    all_goals first
      | exact fits_of_idle rfl
      | exact fits_waiting fits rfl rfl
  · obtain ⟨_, _, rfl⟩ := Option.map_eq_some_iff.mp moved
    exact fits_of_idle rfl
  · obtain ⟨_, _, rfl⟩ := Option.map_eq_some_iff.mp moved
    exact fits_of_idle rfl
  · cases moved
  · cases moved

/-- Every step of a thread has an effect. -/
theorem Stepped.effect (stepped : Stepped capacity answer thread after next)
    (fits : Fits capacity thread) : Effect capacity answer thread after next := by
  cases stepped with
  | executeAdvance step => exact executeAdvance_effect fits step
  | executeResume step => exact executeResume_effect fits step
  | exclusiveAdvance step => exact exclusiveAdvance_effect step
  | exclusiveResume step =>
    unfold ExclusivePc.resume at step
    split at step <;> cases step <;> exact effect_apart rfl rfl rfl
  | cancelAdvance step => exact cancelAdvance_effect fits step
  | cancelResume step => exact cancelResume_effect fits step

end Satelle.CapacitySteps
