import Satelle.Host.AdmissionCancellation

/-! Turns whose outcome is not known (`host/runtime-recovery.rs`): the queue of those that
wait to be observed, behind a lock of its own, and the calls of `reconcile_pending`, which
observe one after the other without holding that lock. -/
namespace Satelle.Host
open Satelle.Core

structure RecoveryKey where
  sessionId : SessionId
  turnId : TurnId
  deriving DecidableEq

structure RecoveryQueue where
  pending : List RecoveryKey
  inFlight : Option RecoveryKey
  deriving DecidableEq

/-- The answer of `restore_recovery_key` and `finish_recovery_subject` when the queue has
moved on. -/
def recoverySubjectChanged : SatelleError :=
  .integrityError "the runtime recovery subject changed while observation was in flight"

/-- `model::recovery_host_busy`. -/
def recoveryHostBusy (key : RecoveryKey) : SatelleError :=
  ⟨.other "host-busy",
    "host 'local-demo' already has an active Computer Use turn in session " ++ key.sessionId.text⟩

namespace RecoveryQueue

/-- The Turns that the queue names. -/
def keys (queue : RecoveryQueue) : List RecoveryKey := queue.inFlight.toList ++ queue.pending

/-- The lock of `claim_recovery_subject`: the key to observe, and whether it was claimed
just now. -/
def claim (queue : RecoveryQueue) : Option (RecoveryKey × Bool) × RecoveryQueue :=
  match queue.inFlight, queue.pending with
  | some key, _ => (some (key, false), queue)
  | none, [] => (none, queue)
  | none, key :: rest => (some (key, true), ⟨rest, some key⟩)

/-- The end of an observation. A stop may have removed the key meanwhile. -/
def release (queue : RecoveryQueue) (key : RecoveryKey) (pending : List RecoveryKey) :
    Except SatelleError Bool × RecoveryQueue :=
  if queue.inFlight = some key then (.ok true, ⟨pending, none⟩)
  else if queue.inFlight = none ∧ key ∉ queue.pending then (.ok false, queue)
  else (.error recoverySubjectChanged, queue)

/-- `restore_recovery_key`. -/
def restore (queue : RecoveryQueue) (key : RecoveryKey) : Except SatelleError Bool × RecoveryQueue :=
  queue.release key (key :: queue.pending)

/-- `finish_recovery_subject`. -/
def finish (queue : RecoveryQueue) (key : RecoveryKey) : Except SatelleError Bool × RecoveryQueue :=
  queue.release key queue.pending

/-- `remove_recovery_subject`. -/
def remove (queue : RecoveryQueue) (key : RecoveryKey) : RecoveryQueue where
  pending := queue.pending.filter (· ≠ key)
  inFlight := if queue.inFlight = some key then none else queue.inFlight

end RecoveryQueue

inductive RecoveryObservation where
  | running | completed | blocked | failed | unknown
  deriving DecidableEq

def RecoveryObservation.transition : RecoveryObservation → Option TurnTransition
  | .running => some .running
  | .completed => some .completed
  | .blocked => some .blocked
  | .failed => some .recoveryFailed
  | .unknown => none

/-- Where a thread stands in `reconcile_pending`. -/
inductive Reconciler where
  | claiming
  /-- Another call observes the key: its subject is loaded for the answer only. -/
  | refused (key : RecoveryKey)
  | loading (key : RecoveryKey)
  | observing (key : RecoveryKey)
  /-- The call is to answer this once the key is back. If a stop has removed the key, one
  that has come to observe it goes on with the next. -/
  | restoring (key : RecoveryKey) (answer : Except SatelleError Bool) (goesOn : Bool)
  | finishing (key : RecoveryKey)
  | returned (answer : Except SatelleError Bool)

/-- What the store and the adapter say to a call. -/
structure Surroundings where
  load : Except SatelleError Unit
  admitOperation : Except SatelleError Unit
  observeRecovery : Except SatelleError RecoveryObservation
  commitLifecycle : TurnTransition → Except SatelleError Unit

namespace Reconciler

/-- The middle of the loop, in which no lock is held. -/
def observe (key : RecoveryKey) (told : Surroundings) : Reconciler :=
  match told.admitOperation, told.observeRecovery with
  | .error e, _ => .restoring key (.error e) true
  | .ok _, .error e => .restoring key (.error e) true
  | .ok _, .ok observation =>
    match observation.transition with
    | none => .restoring key (.ok false) true
    | some transition =>
      match told.commitLifecycle transition with
      | .ok _ => .finishing key
      | .error e => .restoring key (.error e) true

/-- One step of a call; a thread whose call has returned calls again. -/
def advance (told : Surroundings) (queue : RecoveryQueue) :
    Reconciler → RecoveryQueue × Reconciler
  | .returned _ => (queue, .claiming)
  | .claiming =>
    match queue.claim with
    | (none, queue) => (queue, .returned (.ok true))
    | (some (key, true), queue) => (queue, .loading key)
    | (some (key, false), queue) => (queue, .refused key)
  | .refused key =>
    match told.load with
    | .ok _ => (queue, .returned (.error (recoveryHostBusy key)))
    | .error e => (queue, .returned (.error e))
  | .loading key =>
    match told.load with
    | .ok _ => (queue, .observing key)
    | .error e => (queue, .restoring key (.error e) false)
  | .observing key => (queue, observe key told)
  | .restoring key answer goesOn =>
    match queue.restore key with
    | (.ok restored, queue) =>
      (queue, if goesOn && !restored then .claiming else .returned answer)
    | (.error e, queue) => (queue, .returned (.error e))
  | .finishing key =>
    match queue.finish key with
    | (.ok _, queue) => (queue, .claiming)
    | (.error e, queue) => (queue, .returned (.error e))

/-- The key that a call has claimed and not given back. -/
def key : Reconciler → Option RecoveryKey
  | .loading key | .observing key | .restoring key _ _ | .finishing key => some key
  | .claiming | .refused _ | .returned _ => none

end Reconciler

/-- The queue and the threads that work on it. -/
structure Recovery where
  queue : RecoveryQueue
  threads : Nat → Reconciler

inductive RecoveryEvent where
  | advances (thread : Nat) (told : Surroundings)
  /-- A confirmed stop removes a Turn. -/
  | stopped (key : RecoveryKey)

def Recovery.step (recovery : Recovery) : RecoveryEvent → Recovery
  | .advances thread told =>
    let moved := (recovery.threads thread).advance told recovery.queue
    ⟨moved.1, Function.update recovery.threads thread moved.2⟩
  | .stopped key => { recovery with queue := recovery.queue.remove key }

/-- `RecoveryQueue::new`, with no call under way. -/
def Recovery.new (pending : List RecoveryKey) : Recovery := ⟨⟨pending, none⟩, fun _ => .claiming⟩

end Satelle.Host
