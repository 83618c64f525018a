import Satelle.Host.RuntimeRecovery

/-! Who observes which Turn. A claimed key stays with the call that claimed it until the
call gives it back, whatever is stopped meanwhile, and no key leaves the queue unless it
is finished or removed.

A call finds its key in flight, or removed, as long as no other call has claimed a key in
between. A stop frees the slot while its key is still observed, so another call may, and
the first one then reports that its subject has changed. -/
namespace Satelle.RecoveryClaims
open Satelle.Core Host

/-- What a step does to the queue and to the key of the call that takes it. -/
inductive Moved (queue : RecoveryQueue) : Reconciler → RecoveryQueue → Reconciler → Prop where
  | stays (kept : after.key = none ∨ after.key = before.key) : Moved queue before queue after
  | claims (untaken : queue.inFlight = none) (first : queue.pending = key :: rest) :
      Moved queue .claiming ⟨rest, some key⟩ (.loading key)
  | restores (taken : queue.inFlight = some key) (own : before.key = some key)
      (gone : after.key = none) : Moved queue before ⟨key :: queue.pending, none⟩ after
  | finishes (taken : queue.inFlight = some key) :
      Moved queue (.finishing key) ⟨queue.pending, none⟩ .claiming

theorem observe_key (key : RecoveryKey) (told : Surroundings) :
    (Reconciler.observe key told).key = some key := by
  unfold Reconciler.observe
  split
  · rfl
  · rfl
  · split
    · rfl
    · split <;> rfl

theorem release_cases (queue : RecoveryQueue) (key : RecoveryKey) (pending : List RecoveryKey) :
    (queue.inFlight = some key ∧ queue.release key pending = (.ok true, ⟨pending, none⟩)) ∨
      ∃ answer, queue.release key pending = (answer, queue) := by
  unfold RecoveryQueue.release
  by_cases taken : queue.inFlight = some key
  · exact .inl ⟨taken, if_pos taken⟩
  · rw [if_neg taken]
    split
    · exact .inr ⟨_, rfl⟩
    · exact .inr ⟨_, rfl⟩

theorem advance_moved (told : Surroundings) (queue : RecoveryQueue) (reconciler : Reconciler) :
    Moved queue reconciler (reconciler.advance told queue).1 (reconciler.advance told queue).2 := by
  cases reconciler with
  | returned answer => exact .stays (.inl rfl)
  | claiming =>
    obtain ⟨pending, inFlight⟩ := queue
    cases inFlight with
    | some key => exact .stays (.inl rfl)
    | none =>
      cases pending with
      | nil => exact .stays (.inl rfl)
      | cons key rest => exact .claims rfl rfl
  | refused key =>
    simp only [Reconciler.advance]
    split <;> exact .stays (.inl rfl)
  | loading key =>
    simp only [Reconciler.advance]
    split <;> exact .stays (.inr rfl)
  | observing key => exact .stays (.inr (observe_key key told))
  | restoring key answer goesOn =>
    simp only [Reconciler.advance, RecoveryQueue.restore]
    rcases release_cases queue key (key :: queue.pending) with ⟨taken, made⟩ | ⟨found, made⟩
    · rw [made]
      exact .restores taken rfl (by cases goesOn <;> rfl)
    · rw [made]
      cases found with
      | ok restored => exact .stays (.inl (by cases goesOn <;> cases restored <;> rfl))
      | error e => exact .stays (.inl rfl)
  | finishing key =>
    simp only [Reconciler.advance, RecoveryQueue.finish]
    rcases release_cases queue key queue.pending with ⟨taken, made⟩ | ⟨found, made⟩
    · rw [made]
      exact .finishes taken
    · rw [made]
      cases found with
      | ok finished | error e => exact .stays (.inl rfl)

/-- The key of a thread after one of them has moved. -/
theorem key_update {threads : Nat → Reconciler} :
    (Function.update threads thread after other).key =
      if other = thread then after.key else (threads other).key := by
  by_cases same : other = thread
  · rw [same, Function.update_self, if_pos rfl]
  · rw [Function.update_of_ne same, if_neg same]

/-- A claimed key has left the list, and nobody else has claimed it. If no call has been
disturbed, it is the one in flight. -/
structure Claimed (undisturbed : Prop) (recovery : Recovery) : Prop where
  distinct : recovery.queue.keys.Nodup
  apart : ∀ thread key, (recovery.threads thread).key = some key → key ∉ recovery.queue.pending
  single : ∀ a b key, (recovery.threads a).key = some key → (recovery.threads b).key = some key →
    a = b
  current : undisturbed → ∀ key ∈ recovery.queue.inFlight,
    ∀ thread other, (recovery.threads thread).key = some other → other = key

theorem moved_claimed {recovery : Recovery} (claimed : Claimed undisturbed recovery)
    (moved : Moved recovery.queue (recovery.threads thread) queue after)
    (alone : undisturbed → recovery.queue.inFlight = none → queue.inFlight ≠ none →
      ∀ other, (recovery.threads other).key = none) :
    Claimed undisturbed ⟨queue, Function.update recovery.threads thread after⟩ := by
  obtain ⟨distinct, apart, single, current⟩ := claimed
  generalize before : recovery.threads thread = reconciler at moved
  cases moved with
  | stays kept => constructor <;> grind [key_update]
  | @claims key rest untaken first =>
    -- The key was in the list, so nobody had it.
    simp only [RecoveryQueue.keys, untaken, first, Option.toList_none, List.nil_append] at distinct
    constructor <;> grind [key_update, Reconciler.key, RecoveryQueue.keys]
  | @restores key _ _ taken own gone =>
    -- Whoever else had the key would be the thread that gives it back.
    simp only [RecoveryQueue.keys, taken, Option.toList_some, List.singleton_append] at distinct
    constructor <;> grind [key_update, RecoveryQueue.keys]
  | @finishes key taken =>
    simp only [RecoveryQueue.keys, taken, Option.toList_some, List.singleton_append] at distinct
    constructor <;> grind [key_update, Reconciler.key, RecoveryQueue.keys]

/-- A call that claims a key is the only one that has one. -/
def ClaimsAlone (recovery : Recovery) (event : RecoveryEvent) : Prop :=
  recovery.queue.inFlight = none → (recovery.step event).queue.inFlight ≠ none →
    ∀ thread, (recovery.threads thread).key = none

theorem step_claimed (claimed : Claimed undisturbed recovery) (event : RecoveryEvent)
    (alone : undisturbed → ClaimsAlone recovery event) :
    Claimed undisturbed (recovery.step event) := by
  cases event with
  | advances thread told => exact moved_claimed claimed (advance_moved told _ _) alone
  | stopped key =>
    have fewer : (recovery.queue.remove key).inFlight.toList.Sublist
        recovery.queue.inFlight.toList := by
      simp only [RecoveryQueue.remove]
      split
      · exact List.nil_sublist _
      · exact List.Sublist.refl _
    refine ⟨(fewer.append List.filter_sublist).nodup claimed.distinct,
      fun thread other own there => claimed.apart thread other own (List.mem_of_mem_filter there),
      claimed.single, fun holds other taken => ?_⟩
    exact claimed.current holds other
      (Option.mem_toList.mp (fewer.subset (Option.mem_toList.mpr taken)))

/-- No call claims a key while another one has a key that a stop has removed. -/
def Undisturbed (recovery : Recovery) : List RecoveryEvent → Prop
  | [] => True
  | event :: rest => ClaimsAlone recovery event ∧ Undisturbed (recovery.step event) rest

theorem run_claimed (claimed : Claimed undisturbed recovery)
    (calm : undisturbed → Undisturbed recovery events) :
    Claimed undisturbed (events.foldl Recovery.step recovery) := by
  induction events generalizing recovery with
  | nil => exact claimed
  | cons event rest ih =>
    exact ih (step_claimed claimed event fun holds => (calm holds).1) fun holds => (calm holds).2

theorem new_claimed (distinct : keys.Nodup) : Claimed undisturbed (Recovery.new keys) := by
  constructor <;> grind [Recovery.new, RecoveryQueue.keys, Reconciler.key]

theorem step_keeps_keys (recovery : Recovery) (event : RecoveryEvent)
    (there : key ∈ recovery.queue.keys) :
    key ∈ (recovery.step event).queue.keys ∨ event = .stopped key ∨
      ∃ thread told, event = .advances thread told ∧ recovery.threads thread = .finishing key := by
  unfold RecoveryQueue.keys at there ⊢
  cases event with
  | stopped other => grind [Recovery.step, RecoveryQueue.remove]
  | advances thread told =>
    have moved := advance_moved told recovery.queue (recovery.threads thread)
    simp only [Recovery.step]
    generalize (recovery.threads thread).advance told recovery.queue = made at moved ⊢
    obtain ⟨queue, after⟩ := made
    generalize before : recovery.threads thread = reconciler at moved
    cases moved with
    | stays => exact .inl there
    | claims untaken first =>
      rw [untaken, first] at there
      exact .inl there
    | restores taken =>
      rw [taken] at there
      exact .inl there
    | @finishes current taken =>
      rw [taken] at there
      rcases List.mem_cons.mp there with rfl | later
      · exact .inr (.inr ⟨thread, told, rfl, before⟩)
      · exact .inl later

/-- **The recovery claims.** For every schedule of calls and stops on a queue without
duplicates: a key is observed by one call at a time, and is not lost but by
`finish_recovery_subject` or `remove_recovery_subject`. A call does not find its subject
changed if none claims a key while another one has a key that a stop has removed. -/
theorem recovery_claims_exclusive (keys : List RecoveryKey) (distinct : keys.Nodup)
    (events : List RecoveryEvent) (recovery : Recovery)
    (ran : events.foldl Recovery.step (Recovery.new keys) = recovery) :
    (∀ a b key, (recovery.threads a).key = some key → (recovery.threads b).key = some key →
      a = b) ∧
    (∀ key ∈ recovery.queue.keys, ∀ event, key ∈ (recovery.step event).queue.keys ∨
      event = .stopped key ∨ ∃ thread told, event = .advances thread told ∧
        recovery.threads thread = .finishing key) ∧
    (Undisturbed (Recovery.new keys) events →
      ∀ thread key, (recovery.threads thread).key = some key →
        (recovery.queue.restore key).1 ≠ .error recoverySubjectChanged ∧
        (recovery.queue.finish key).1 ≠ .error recoverySubjectChanged) := by
  have claimed : Claimed (Undisturbed (Recovery.new keys) events) recovery :=
    ran ▸ run_claimed (new_claimed distinct) id
  refine ⟨claimed.single, fun key there event => step_keeps_keys recovery event there, ?_⟩
  intro undisturbed thread key own
  have gone := claimed.apart thread key own
  unfold RecoveryQueue.restore RecoveryQueue.finish RecoveryQueue.release
  cases taken : recovery.queue.inFlight with
  | none => simp [gone]
  | some current =>
    have same := claimed.current undisturbed current taken thread key own
    simp [same]

/-! ## Samples -/

def sampleKey (turn : String) (canonical : isCanonicalId "rt_" turn = true) : RecoveryKey :=
  ⟨⟨"rs_01890a5d-ac96-774b-bcce-b302099a8057", by decide +kernel⟩, ⟨turn, canonical⟩⟩

def firstKey : RecoveryKey :=
  sampleKey "rt_01890a5d-ac96-774b-bcce-b302099a8057" (by decide +kernel)

def secondKey : RecoveryKey :=
  sampleKey "rt_01890a5d-ac96-774b-bcce-b302099a8058" (by decide +kernel)

/-- The store loads every subject, and no Turn can be observed. -/
def unknownOutcome : Surroundings where
  load := .ok ()
  admitOperation := .ok ()
  observeRecovery := .ok .unknown
  commitLifecycle := fun _ => .ok ()

/-- The first thread claims a key; that key is stopped. -/
def stopWhileObserved : List RecoveryEvent := [
  .advances 0 unknownOutcome, .advances 0 unknownOutcome, .advances 0 unknownOutcome,
  .stopped firstKey]

theorem recovery_claims_exclusive_stopped :
    ((stopWhileObserved.foldl Recovery.step (.new [firstKey, secondKey])).queue.restore firstKey).1 ≠
      .error recoverySubjectChanged := by
  refine ((recovery_claims_exclusive _ ?_ stopWhileObserved _ rfl).2.2 ?_ 0 firstKey ?_).1
  · decide +kernel
  · exact ⟨fun _ _ _ => rfl, nofun, nofun, nofun, trivial⟩
  · rfl

/-- A second thread claims the other key before the first is done with the one that was
stopped: the first reports an integrity failure. -/
theorem stop_displaces_observer :
    (([.advances 1 unknownOutcome, .advances 0 unknownOutcome].foldl Recovery.step
      (stopWhileObserved.foldl Recovery.step (.new [firstKey, secondKey]))).threads 0 =
        .returned (.error recoverySubjectChanged)) := by
  rfl

end Satelle.RecoveryClaims
