import Satelle.Host.AdmissionCancellation
import Satelle.Host.Codec

/-! The one slot of the Host for operations (`host/operation-capacity.rs`). A call
is a thread that stops at each lock: a step is what it does up to the next lock,
or the return of a closure it was given. The closures may answer anything, and
may panic. The mutex of the slot is never held across a step and nothing that
runs under it panics, so its poisoned case does not arise. -/
namespace Satelle.Host
open Satelle.Core

/-! ## Requests and outcomes -/

structure OperationRequest where
  principalRef : String
  operation : IdempotentOperation
  idempotencyKey : String
  requestDigest : String
  digestSchemaVersion : Nat
  hmacKeyVersion : Nat
  deriving DecidableEq

def OperationRequest.sameBase (self other : OperationRequest) : Bool :=
  self.principalRef = other.principalRef && self.operation = other.operation &&
    self.idempotencyKey = other.idempotencyKey

/-- The replies of the operations that are not admissions only pass through. -/
inductive OperationOutcome (Reply : Type) where
  | admission (session : PublicSession) (turnId : TurnId)
  | stop (reply : Reply)
  | apiToken (reply : Reply)
  | providerBindingAuthorization (reply : Reply)
  | providerSecretProvisioning (reply : Reply)
  | storageMigration (reply : Reply)
  deriving DecidableEq

abbrev SharedResult (Reply : Type) := Except SatelleError (OperationOutcome Reply)

inductive AdmissionCancellationOutcome where
  | cancelled | reconciledCancelled
  | admitted (session : PublicSession) (turnId : TurnId)
  | recoveryPending
  deriving DecidableEq

inductive DurableAdmissionOutcome (Reply : Type) where
  | missing
  | admitted (outcome : OperationOutcome Reply)
  | cancelled
  | recoveryPending
  deriving DecidableEq

def OperationOutcome.intoAdmissionCancellation :
    OperationOutcome Reply → Except SatelleError AdmissionCancellationOutcome
  | .admission session turnId => .ok (.admitted session turnId)
  | .stop _ => .error (.integrityError "an admission cancellation received a stop result")
  | .providerBindingAuthorization _ => .error (.integrityError
      "an admission cancellation received a provider binding authorization result")
  | .providerSecretProvisioning _ => .error (.integrityError
      "an admission cancellation received a provider secret provisioning result")
  | .apiToken _ => .error (.integrityError
      "an admission cancellation received an API token result")
  | .storageMigration _ => .error (.integrityError
      "an admission cancellation received a storage migration result")

def operationCapacityExceeded : SatelleError := .capacityExceeded "operation-concurrency" 1

/-! ## The slot -/

/-- The place of an entry among all entries ever made stands for its `Arc`. -/
abbrev EntryId := Nat

/-- The token an admission was started with. -/
abbrev TokenId := Nat

abbrev ThreadId := Nat

/-- An operation in flight. The mutex of the result may be held across a step,
and a panic under it poisons it. -/
structure InFlight (Reply : Type) where
  request : OperationRequest
  cancellation : TokenId
  result : Option (SharedResult Reply)
  locked : Bool
  poisoned : Bool

inductive ActiveOperation where
  | idempotent (entry : EntryId)
  | exclusive
  deriving DecidableEq

/-- What all threads share. -/
structure OperationCapacity (Reply : Type) where
  active : Option ActiveOperation
  generation : UInt64
  entries : List (InFlight Reply)
  tokens : TokenId → AdmissionCancellation

namespace OperationCapacity
variable {Reply : Type}

def new : OperationCapacity Reply := ⟨none, 0, [], fun _ => .new⟩

/-- The active entry of this very request. -/
def matchingEntry (capacity : OperationCapacity Reply) (request : OperationRequest) :
    Except SatelleError (Option EntryId) :=
  match capacity.active with
  | some (.idempotent entry) =>
    match capacity.entries[entry]? with
    | none => .ok none
    | some active =>
      if active.request.sameBase request ∧ active.request ≠ request then
        .error .idempotencyConflict
      else if active.request ≠ request then .ok none
      else .ok (some entry)
  | some .exclusive | none => .ok none

/-- A new leader takes the free slot. -/
def install (capacity : OperationCapacity Reply) (request : OperationRequest) (token : TokenId) :
    OperationCapacity Reply :=
  { capacity with
    active := some (.idempotent capacity.entries.length)
    generation := capacity.generation + 1
    entries := capacity.entries ++ [⟨request, token, none, false, false⟩] }

def installExclusive (capacity : OperationCapacity Reply) : OperationCapacity Reply :=
  { capacity with active := some .exclusive, generation := capacity.generation + 1 }

def finalizeAndClear (capacity : OperationCapacity Reply) (entry : EntryId) :
    OperationCapacity Reply :=
  if capacity.active = some (.idempotent entry) then
    { capacity with active := none, generation := capacity.generation + 1 }
  else capacity

def clearExclusive (capacity : OperationCapacity Reply) : OperationCapacity Reply :=
  if capacity.active = some .exclusive then
    { capacity with active := none, generation := capacity.generation + 1 }
  else capacity

def advanceGeneration (capacity : OperationCapacity Reply) : OperationCapacity Reply :=
  { capacity with generation := capacity.generation + 1 }

/-- A change of one entry. -/
def modify (capacity : OperationCapacity Reply) (entry : EntryId)
    (change : InFlight Reply → InFlight Reply) : OperationCapacity Reply :=
  { capacity with entries := capacity.entries.modify entry change }

def lockResult (capacity : OperationCapacity Reply) (entry : EntryId) : OperationCapacity Reply :=
  capacity.modify entry fun inFlight => { inFlight with locked := true }

def unlockResult (capacity : OperationCapacity Reply) (entry : EntryId) :
    OperationCapacity Reply :=
  capacity.modify entry fun inFlight => { inFlight with locked := false }

/-- A panic drops the guard of the result. -/
def poisonResult (capacity : OperationCapacity Reply) (entry : EntryId) :
    OperationCapacity Reply :=
  capacity.modify entry fun inFlight => { inFlight with locked := false, poisoned := true }

/-- The first result stays. -/
def completeLocked (capacity : OperationCapacity Reply) (entry : EntryId)
    (result : SharedResult Reply) : OperationCapacity Reply :=
  capacity.modify entry fun inFlight =>
    { inFlight with result := inFlight.result.or (some result), locked := true }

def setToken (capacity : OperationCapacity Reply) (token : TokenId)
    (cancellation : AdmissionCancellation) : OperationCapacity Reply :=
  { capacity with
    tokens := fun other => if other = token then cancellation else capacity.tokens other }

end OperationCapacity

/-- The closures a call is given. -/
inductive Closure where
  | resolve
  | persistCancellation (outcome : AdmissionCancellationOutcome)
  | operation
  deriving DecidableEq

/-- What a closure does: `resolve` and `persist_cancellation` answer with
durable state, an operation with its result. -/
inductive Answer (Reply : Type) where
  | durable (answer : Except SatelleError (DurableAdmissionOutcome Reply))
  | result (result : SharedResult Reply)
  | exclusive (result : Except SatelleError Reply)
  | panic

/-! ## `execute_interruptible_durable`

`execute` is this call with a token of its own, with `resolve` made from the
replay it is given and a `persist_cancellation` that answers `Missing`. -/

inductive ExecutePc (Reply : Type) where
  /-- At the head of the loop. -/
  | probing
  /-- `resolve` is running. -/
  | resolving (observed : UInt64)
  /-- `resolve` has returned; the generation is compared next. -/
  | resolved (observed : UInt64) (replayed : DurableAdmissionOutcome Reply)
  /-- About to take the slot. -/
  | installing (observed : UInt64)
  /-- The operation of the leader is running. -/
  | leading (entry : EntryId)
  /-- The operation has returned; the result is locked next. -/
  | finishing (entry : EntryId) (result : SharedResult Reply)
  /-- A cancellation was asked for and is about to be finished. -/
  | settling (entry : EntryId) (result : SharedResult Reply)
  /-- `persist_cancellation` is running, under the lock of the result. -/
  | persisting (entry : EntryId) (result : SharedResult Reply)
      (outcome : AdmissionCancellationOutcome)
  /-- The result is stored; the slot is cleared next. -/
  | clearing (entry : EntryId) (result : SharedResult Reply)
  | releasing (entry : EntryId) (result : SharedResult Reply)
  /-- A panic of the leader drops it: the result is locked next. -/
  | unwinding (entry : EntryId)
  | unwindClearing (entry : EntryId)
  | unwindReleasing (entry : EntryId)
  /-- In `wait`; `waited` once it has slept on the condition. -/
  | following (entry : EntryId) (waited : Bool)
  /-- Returned without an entry: replayed or refused. -/
  | returned (result : SharedResult Reply)
  /-- Returned what `wait` gave. -/
  | joined (entry : EntryId) (result : SharedResult Reply)
  /-- Returned as the leader, or ended by a panic. -/
  | retired (entry : EntryId) (result : Option (SharedResult Reply))
  | panicked

def terminatedEarly : SatelleError :=
  .integrityError "the in-flight operation terminated before producing a result"

def resultPoisoned : SatelleError :=
  .integrityError "the in-flight operation result lock was poisoned"

def waitPoisoned : SatelleError :=
  .integrityError "the in-flight operation wait lock was poisoned"

/-- What `wait` gives once it has the lock, or nothing while there is no
result. -/
def InFlight.poll (inFlight : InFlight Reply) (waited : Bool) : Option (SharedResult Reply) :=
  if inFlight.poisoned then some (.error (if waited then waitPoisoned else resultPoisoned))
  else inFlight.result

namespace ExecutePc
variable {Reply : Type}

/-- The leader has the lock of the result and has read the state of the token. -/
def finished (capacity : OperationCapacity Reply) (entry : EntryId) (result : SharedResult Reply) :
    AdmissionCancellationState → OperationCapacity Reply × ExecutePc Reply
  | .cancelled => (capacity.lockResult entry, .persisting entry result .reconciledCancelled)
  | .requested => (capacity.lockResult entry, .settling entry result)
  | .recoveryPending => (capacity.lockResult entry, .persisting entry result .recoveryPending)
  | .opened | .admitted _ _ => (capacity.completeLocked entry result, .clearing entry result)

/-- The steps between locks. A thread that waits for a lock or for a closure has
none. -/
def advance (capacity : OperationCapacity Reply) (request : OperationRequest) (token : TokenId) :
    ExecutePc Reply → Option (OperationCapacity Reply × ExecutePc Reply)
  | .probing =>
    match capacity.matchingEntry request with
    | .error error => some (capacity, .returned (.error error))
    | .ok (some entry) => some (capacity, .following entry false)
    | .ok none => some (capacity, .resolving capacity.generation)
  | .resolved observed replayed =>
    if capacity.generation ≠ observed then some (capacity, .probing)
    else match replayed with
      | .admitted outcome => some (capacity, .returned (.ok outcome))
      | .cancelled | .recoveryPending => some (capacity, .returned (.error .stateConflict))
      | .missing => some (capacity, .installing observed)
  | .installing observed =>
    if capacity.generation ≠ observed then some (capacity, .probing)
    else match capacity.matchingEntry request with
      | .error error => some (capacity, .returned (.error error))
      | .ok (some entry) => some (capacity, .following entry false)
      | .ok none =>
        match capacity.active with
        | none => some (capacity.install request token, .leading capacity.entries.length)
        | some _ => some (capacity, .returned (.error operationCapacityExceeded))
  | .finishing entry result =>
    match capacity.entries[entry]? with
    | none => none
    | some inFlight =>
      if inFlight.locked then none
      else some (finished capacity entry result (capacity.tokens inFlight.cancellation).state)
  | .settling entry result =>
    match capacity.entries[entry]? with
    | none => none
    | some inFlight =>
      some (capacity.setToken inFlight.cancellation
          ((capacity.tokens inFlight.cancellation).finish .cancelled),
        .persisting entry result .reconciledCancelled)
  | .clearing entry result => some (capacity.finalizeAndClear entry, .releasing entry result)
  | .releasing entry result => some (capacity.unlockResult entry, .retired entry (some result))
  | .unwinding entry =>
    match capacity.entries[entry]? with
    | none => none
    | some inFlight =>
      if inFlight.locked then none
      else some (capacity.completeLocked entry (.error terminatedEarly), .unwindClearing entry)
  | .unwindClearing entry => some (capacity.finalizeAndClear entry, .unwindReleasing entry)
  | .unwindReleasing entry => some (capacity.unlockResult entry, .retired entry none)
  | .following entry waited =>
    match capacity.entries[entry]? with
    | none => none
    | some inFlight =>
      if inFlight.locked then none
      else match inFlight.poll waited with
        | some result => some (capacity, .joined entry result)
        | none => some (capacity, .following entry true)
  | .resolving _ | .leading _ | .persisting _ _ _ | .returned _ | .joined _ _ | .retired _ _
  | .panicked => none

/-- The closure that is running. -/
def calling : ExecutePc Reply → Option Closure
  | .resolving _ => some .resolve
  | .persisting _ _ outcome => some (.persistCancellation outcome)
  | .leading _ => some .operation
  | _ => none

/-- A closure returns, or panics. A failed `persist_cancellation` replaces the
result. -/
def resume (capacity : OperationCapacity Reply) :
    ExecutePc Reply → Answer Reply → Option (OperationCapacity Reply × ExecutePc Reply)
  | .resolving observed, .durable (.ok replayed) => some (capacity, .resolved observed replayed)
  | .resolving _, .durable (.error error) => some (capacity, .returned (.error error))
  | .resolving _, .panic => some (capacity, .panicked)
  | .leading entry, .result result => some (capacity, .finishing entry result)
  | .leading entry, .panic => some (capacity, .unwinding entry)
  | .persisting entry result _, .durable (.ok _) =>
    some (capacity.completeLocked entry result, .clearing entry result)
  | .persisting entry _ _, .durable (.error error) =>
    some (capacity.completeLocked entry (.error error), .clearing entry (.error error))
  | .persisting entry _ _, .panic => some (capacity.poisonResult entry, .unwinding entry)
  | _, _ => none

end ExecutePc

/-! ## `execute_exclusive` -/

inductive ExclusivePc (Reply : Type) where
  | entering
  /-- The operation is running. -/
  | running
  | clearing (result : Except SatelleError Reply)
  | unwinding
  | returned (result : Except SatelleError Reply)
  | panicked

namespace ExclusivePc
variable {Reply : Type}

def advance (capacity : OperationCapacity Reply) :
    ExclusivePc Reply → Option (OperationCapacity Reply × ExclusivePc Reply)
  | .entering =>
    if capacity.active.isSome then some (capacity, .returned (.error operationCapacityExceeded))
    else some (capacity.installExclusive, .running)
  | .clearing result => some (capacity.clearExclusive, .returned result)
  | .unwinding => some (capacity.clearExclusive, .panicked)
  | .running | .returned _ | .panicked => none

def resume (capacity : OperationCapacity Reply) :
    ExclusivePc Reply → Answer Reply → Option (OperationCapacity Reply × ExclusivePc Reply)
  | .running, .exclusive result => some (capacity, .clearing result)
  | .running, .panic => some (capacity, .unwinding)
  | _, _ => none

end ExclusivePc

/-! ## `cancel_durable` -/

inductive CancelPc (Reply : Type) where
  | probing
  /-- No entry is active; `resolve` is running. -/
  | resolving (observed : UInt64)
  | comparing (observed : UInt64)
  /-- `persist_cancellation` is running, for a request that is not in flight. -/
  | persistingCancelled
  /-- The tombstone is written; the generation is advanced next. -/
  | advancing (persisted : DurableAdmissionOutcome Reply)
  /-- An entry is active; its result is locked next. -/
  | requesting (entry : EntryId)
  /-- Under the lock of the result; the commit gate is taken next. -/
  | gating (entry : EntryId)
  /-- The cancellation is asked for; `persist_cancellation` is running. -/
  | persistingPending (entry : EntryId)
  /-- In `wait`. -/
  | awaiting (entry : EntryId) (waited : Bool)
  /-- The operation has failed; the state of the token is read next. -/
  | inspecting (entry : EntryId)
  | resolvingAdmitted
  /-- `persist_cancellation` is running, with what is about to be returned. -/
  | persistingFinal (outcome : CancellationFinish)
  /-- The operation had failed before; `resolve` is running. -/
  | completedResolving
  | completedPersisting
  | returned (result : Except SatelleError AdmissionCancellationOutcome)
  | panicked

def CancellationFinish.outcome : CancellationFinish → AdmissionCancellationOutcome
  | .cancelled => .cancelled
  | .recoveryPending => .recoveryPending

namespace CancelPc
variable {Reply : Type}

/-- The operation in flight was admitted. -/
def admitted (outcome : OperationOutcome Reply) : CancelPc Reply :=
  .returned outcome.intoAdmissionCancellation

/-- `request_cancellation` has the lock of the result. -/
def registered (capacity : OperationCapacity Reply) (entry : EntryId) :
    Option (SharedResult Reply) → OperationCapacity Reply × CancelPc Reply
  | some (.ok outcome) => (capacity, admitted outcome)
  | some (.error _) => (capacity, .completedResolving)
  | none => (capacity.lockResult entry, .gating entry)

/-- `wait` has given a result. -/
def awaited (entry : EntryId) : SharedResult Reply → CancelPc Reply
  | .ok outcome => admitted outcome
  | .error _ => .inspecting entry

def advance (capacity : OperationCapacity Reply) (request : OperationRequest) :
    CancelPc Reply → Option (OperationCapacity Reply × CancelPc Reply)
  | .probing =>
    match capacity.matchingEntry request with
    | .error error => some (capacity, .returned (.error error))
    | .ok (some entry) => some (capacity, .requesting entry)
    | .ok none => some (capacity, .resolving capacity.generation)
  | .comparing observed =>
    if capacity.generation ≠ observed then some (capacity, .probing)
    else some (capacity, .persistingCancelled)
  | .advancing persisted =>
    match capacity.matchingEntry request with
    | .error error => some (capacity.advanceGeneration, .returned (.error error))
    | .ok (some entry) => some (capacity.advanceGeneration, .requesting entry)
    | .ok none =>
      match persisted with
      | .admitted outcome => some (capacity.advanceGeneration, admitted outcome)
      | .cancelled | .missing => some (capacity.advanceGeneration, .returned (.ok .cancelled))
      | .recoveryPending => some (capacity.advanceGeneration, .returned (.ok .recoveryPending))
  | .requesting entry =>
    match capacity.entries[entry]? with
    | none => none
    | some inFlight =>
      if inFlight.locked then none else some (registered capacity entry inFlight.result)
  | .gating entry =>
    match capacity.entries[entry]? with
    | none => none
    | some inFlight =>
      match (capacity.tokens inFlight.cancellation).requestState with
      | none => none
      | some token =>
        match token.state with
        | .admitted _ _ => some ((capacity.setToken inFlight.cancellation token).unlockResult entry,
            .awaiting entry false)
        | .opened | .requested | .cancelled | .recoveryPending =>
          some ((capacity.setToken inFlight.cancellation token).unlockResult entry,
            .persistingPending entry)
  | .awaiting entry waited =>
    match capacity.entries[entry]? with
    | none => none
    | some inFlight =>
      if inFlight.locked then none
      else match inFlight.poll waited with
        | some result => some (capacity, awaited entry result)
        | none => some (capacity, .awaiting entry true)
  | .inspecting entry =>
    match capacity.entries[entry]? with
    | none => none
    | some inFlight =>
      match (capacity.tokens inFlight.cancellation).state with
      | .cancelled => some (capacity, .persistingFinal .cancelled)
      | .admitted _ _ => some (capacity, .resolvingAdmitted)
      | .opened | .requested | .recoveryPending =>
        some (capacity, .persistingFinal .recoveryPending)
  | .resolving _ | .persistingCancelled | .persistingPending _ | .resolvingAdmitted
  | .persistingFinal _ | .completedResolving | .completedPersisting | .returned _ | .panicked =>
    none

def noDurableReplay : SatelleError :=
  .integrityError "an admitted cancellation had no durable admission replay"

/-- The place after `resolve` or `persist_cancellation` has answered. -/
def answered : CancelPc Reply → DurableAdmissionOutcome Reply → Option (CancelPc Reply)
  | .resolving _, .admitted outcome => some (admitted outcome)
  | .resolving _, .cancelled => some (.returned (.ok .cancelled))
  | .resolving _, .recoveryPending => some (.returned (.ok .recoveryPending))
  | .resolving observed, .missing => some (.comparing observed)
  | .persistingCancelled, persisted => some (.advancing persisted)
  | .persistingPending _, .admitted outcome => some (admitted outcome)
  | .persistingPending entry, .missing => some (.awaiting entry false)
  | .persistingPending entry, .cancelled => some (.awaiting entry false)
  | .persistingPending entry, .recoveryPending => some (.awaiting entry false)
  | .resolvingAdmitted, .admitted outcome => some (admitted outcome)
  | .resolvingAdmitted, .missing => some (.returned (.error noDurableReplay))
  | .resolvingAdmitted, .cancelled => some (.returned (.error noDurableReplay))
  | .resolvingAdmitted, .recoveryPending => some (.returned (.error noDurableReplay))
  | .persistingFinal _, .admitted outcome => some (admitted outcome)
  | .persistingFinal _, .recoveryPending => some (.returned (.ok .recoveryPending))
  | .persistingFinal _, .cancelled => some (.returned (.ok .cancelled))
  | .persistingFinal outcome, .missing => some (.returned (.ok outcome.outcome))
  | .completedResolving, .admitted outcome => some (admitted outcome)
  | .completedResolving, .recoveryPending => some (.returned (.ok .recoveryPending))
  | .completedResolving, .cancelled => some (.returned (.ok .cancelled))
  | .completedResolving, .missing => some .completedPersisting
  | .completedPersisting, .admitted outcome => some (admitted outcome)
  | .completedPersisting, .recoveryPending => some (.returned (.ok .recoveryPending))
  | .completedPersisting, .cancelled => some (.returned (.ok .cancelled))
  | .completedPersisting, .missing => some (.returned (.ok .cancelled))
  | _, _ => none

/-- The closure that is running. -/
def calling : CancelPc Reply → Option Closure
  | .resolving _ | .resolvingAdmitted | .completedResolving => some .resolve
  | .persistingCancelled | .completedPersisting => some (.persistCancellation .cancelled)
  | .persistingPending _ | .persistingFinal .recoveryPending =>
    some (.persistCancellation .recoveryPending)
  | .persistingFinal .cancelled => some (.persistCancellation .reconciledCancelled)
  | _ => none

/-- A closure returns, or panics. -/
def resume (pc : CancelPc Reply) : Answer Reply → Option (CancelPc Reply)
  | .durable (.ok outcome) => pc.answered outcome
  | .durable (.error error) => pc.calling.map fun _ => .returned (.error error)
  | .panic => pc.calling.map fun _ => .panicked
  | .result _ | .exclusive _ => none

end CancelPc

/-! ## The threads -/

inductive Thread (Reply : Type) where
  | execute (request : OperationRequest) (token : TokenId) (pc : ExecutePc Reply)
  | exclusive (pc : ExclusivePc Reply)
  | cancel (request : OperationRequest) (pc : CancelPc Reply)

namespace Thread
variable {Reply : Type}

/-- A call that has just been made. -/
def fresh : Thread Reply → Bool
  | .execute _ _ .probing => true
  | .exclusive .entering => true
  | .cancel _ .probing => true
  | _ => false

def advance (capacity : OperationCapacity Reply) :
    Thread Reply → Option (OperationCapacity Reply × Thread Reply)
  | .execute request token pc =>
    (pc.advance capacity request token).map fun (after, next) =>
      (after, .execute request token next)
  | .exclusive pc => (pc.advance capacity).map fun (after, next) => (after, .exclusive next)
  | .cancel request pc =>
    (pc.advance capacity request).map fun (after, next) => (after, .cancel request next)

def resume (capacity : OperationCapacity Reply) (answer : Answer Reply) :
    Thread Reply → Option (OperationCapacity Reply × Thread Reply)
  | .execute request token pc =>
    (pc.resume capacity answer).map fun (after, next) => (after, .execute request token next)
  | .exclusive pc => (pc.resume capacity answer).map fun (after, next) => (after, .exclusive next)
  | .cancel request pc => (pc.resume answer).map fun next => (capacity, .cancel request next)

end Thread

/-- What the holders of a token do with it: anyone may ask for the cancellation;
the operation finishes it, and goes through the commit gate. -/
inductive TokenAction where
  | request
  | finish (outcome : CancellationFinish)
  | enterCommitGate
  | commit (sessionId : SessionId) (turnId : TurnId)
  | leaveCommitGate

def TokenAction.perform (token : AdmissionCancellation) :
    TokenAction → Option AdmissionCancellation
  | .request => token.requestState
  | .finish outcome => some (token.finish outcome)
  | .enterCommitGate => token.enterCommitGate.map (·.1)
  | .commit sessionId turnId =>
    if token.committing then some (.committed sessionId turnId) else none
  | .leaveCommitGate => if token.committing then some token.leaveCommitGate else none

structure System (Reply : Type) where
  capacity : OperationCapacity Reply
  threads : ThreadId → Option (Thread Reply)

inductive Action (Reply : Type) where
  | call (id : ThreadId) (thread : Thread Reply)
  | advance (id : ThreadId)
  | resume (id : ThreadId) (answer : Answer Reply)
  | token (token : TokenId) (action : TokenAction)

namespace System
variable {Reply : Type}

def new : System Reply := ⟨.new, fun _ => none⟩

/-- The system after one thread has moved. -/
def moved (system : System Reply) (id : ThreadId)
    (move : OperationCapacity Reply × Thread Reply) : System Reply :=
  ⟨move.1, fun other => if other = id then some move.2 else system.threads other⟩

def perform (system : System Reply) : Action Reply → Option (System Reply)
  | .call id thread =>
    if system.threads id = none ∧ thread.fresh = true then
      some (system.moved id (system.capacity, thread))
    else none
  | .advance id =>
    (system.threads id).bind fun thread =>
      (thread.advance system.capacity).map (system.moved id)
  | .resume id answer =>
    (system.threads id).bind fun thread =>
      (thread.resume system.capacity answer).map (system.moved id)
  | .token token action =>
    (action.perform (system.capacity.tokens token)).map fun cancellation =>
      { system with capacity := system.capacity.setToken token cancellation }

/-- The systems that any interleaving of calls leads to. -/
inductive Reachable : System Reply → Prop where
  | new : Reachable new
  | step (before : Reachable system) (performed : system.perform action = some after) :
      Reachable after

end System

end Satelle.Host
