import Satelle.Host.OperationCapacity
import Satelle.Host.Store

/-! Admissions over the slot, the token and the store: the closures with which
`admit_run_with_cancellation`, `cancel_run_admission` and their steer
counterparts (`host/daemon.rs`) call the slot, and the operation of a leader
(`Runtime::run`, `Runtime::steer` and the engine behind them, `host/runtime.rs`).
Each transaction of the store is one step; what the adapter, the readiness
checks and the clock decide is left open. -/
namespace Satelle.Host
open Satelle.Core

/-! ## Errors of the store -/

def StorageErrorKind.text : StorageErrorKind → String
  | .invalidInput => "the storage operation input is invalid"
  | .invalidStoredState => "the stored Satelle lifecycle state is invalid"
  | .sessionNotFound => "the requested Satelle Session was not found"
  | .sessionNotSteerable => "the Session has no retained upstream thread available for steering"
  | .leaseConflict => "the selected Satelle Control Lease is already owned"
  | .stateConflict => "the stored Satelle lifecycle state changed concurrently"
  | .idempotencyConflict => "the idempotency key was reused for a different request"
  | .admissionCancelled => "the admission was cancelled before it committed"
  | .privateReferenceConflict => "an observed private runtime reference conflicts with stored state"
  | .operationFailed => "the Satelle storage operation failed"

def localDemoHost : String := "local-demo"

def storageFailure (error : StorageError) : SatelleError :=
  match error.conflictingSession with
  | some sessionId => ⟨.other "host-busy", "host '" ++ localDemoHost ++
      "' already has an active Computer Use turn in session " ++ sessionId.text⟩
  | none =>
    match error.kind with
    | .invalidInput => ⟨.other "invalid-usage", error.kind.text⟩
    | .idempotencyConflict => .idempotencyConflict
    | .admissionCancelled => .interruptedAttachedCommand
    | .leaseConflict => ⟨.other "host-busy",
        "Host `" ++ localDemoHost ++ "` is already controlling its authorized desktop"⟩
    | .stateConflict => .stateConflict
    | .sessionNotSteerable => ⟨.other "computer-use-not-ready",
        "native Computer Use is blocked because required capability evidence is incomplete"⟩
    | .invalidStoredState | .privateReferenceConflict => .integrityError error.kind.text
    | .sessionNotFound | .operationFailed => ⟨.other "host-unreachable", error.kind.text⟩

/-! ## The closures of a call -/

/-- A request to run or to steer. -/
def OperationRequest.isAdmission (request : OperationRequest) : Bool :=
  request.operation = .run || request.operation = .steer

/-- The input was made of the identity of the request, at some time
(`model::idempotency`). -/
def OperationRequest.presents (request : OperationRequest) (input : IdempotencyInput) : Bool :=
  input.principalRef.text = request.principalRef && input.operation = request.operation &&
    input.key.text = request.idempotencyKey && input.requestDigest = request.requestDigest &&
    input.digestSchemaVersion = request.digestSchemaVersion &&
    input.hmacKeyVersion = request.hmacKeyVersion

def AdmissionReplay.publicSession (replay : AdmissionReplay) : Except SatelleError PublicSession :=
  match replay.outcome with
  | .inProgress session | .complete session => .ok session.toPublic
  | .execute _ _ => .error
      (.integrityError "a stored idempotency replay requested new adapter execution")

def durableAdmissionOutcome :
    DurableAdmissionState → Except SatelleError (DurableAdmissionOutcome Reply)
  | .missing => .ok .missing
  | .cancelled => .ok .cancelled
  | .recoveryPending => .ok .recoveryPending
  | .admitted replay => do
    let session ← replay.publicSession
    return .admitted (.admission session replay.turnId)

/-- An admitted outcome is never persisted. -/
def durableCancellationOutcome :
    AdmissionCancellationOutcome → Option DurableCancellationOutcome
  | .cancelled | .reconciledCancelled => some .cancelled
  | .recoveryPending => some .recoveryPending
  | .admitted _ _ => none

def cancellationIsReconciled : AdmissionCancellationOutcome → Bool
  | .reconciledCancelled => true
  | .cancelled | .recoveryPending | .admitted _ _ => false

section Closures
variable (codec : TimeCodec) (input : IdempotencyInput) (expectedSessionId : Option SessionId)

/-- The `resolve` of a call. -/
def resolveClosure (db : Database) :
    Except SatelleError (DurableAdmissionOutcome Reply) := do
  let state ← (resolveAdmissionOperation codec db input.operation input expectedSessionId
    input.createdAt).mapError storageFailure
  durableAdmissionOutcome state

/-- The call of the store that `persist_cancellation` makes. -/
def persistCall (outcome : AdmissionCancellationOutcome) : Option StoreCall :=
  (durableCancellationOutcome outcome).map fun durable =>
    if cancellationIsReconciled outcome then
      .reconcileAdmissionCancellation input.operation input expectedSessionId durable
        input.createdAt
    else
      .recordAdmissionCancellation input.operation input expectedSessionId durable input.createdAt

/-- What `persist_cancellation` makes of the reply. -/
def persisted : Except StorageError StoreReply →
    Option (Except SatelleError (DurableAdmissionOutcome Reply))
  | .ok (.cancellation state) => some (durableAdmissionOutcome state)
  | .error error => some (.error (storageFailure error))
  | .ok _ => none

/-- `replay_admission` of the engine. -/
def replayClosure (db : Database) : Except SatelleError (Option PublicSession) := do
  let replay ← (replayAdmissionIfPresent codec db input.operation input
    expectedSessionId).mapError storageFailure
  replay.mapM AdmissionReplay.publicSession

end Closures

/-! ## The operation of a leader -/

/-- The Session and the Turn that a transaction is to admit. -/
def StoreCall.admissionTarget : StoreCall → Option (SessionId × TurnId)
  | .beginSession session _ _ _ => session.turns.getLast?.map fun turn => (session.id, turn.id)
  | .beginFollowUp sessionId _ turnId _ _ _ _ _ => some (sessionId, turnId)
  | _ => none

/-- The input a transaction admits a Turn under. -/
def StoreCall.admissionInput : StoreCall → Option IdempotencyInput
  | .beginSession _ _ context _ => some context.idempotency
  | .beginFollowUp _ _ _ _ _ _ context _ => some context.idempotency
  | _ => none

def AdmissionOutcome.session : AdmissionOutcome → Session
  | .execute session _ | .inProgress session | .complete session => session

inductive AdmissionPc where
  /-- The request may have been admitted before. -/
  | replaying
  /-- The adapter, recovery and the readiness checks decide. -/
  | preparing
  /-- About to go through the commit gate with this transaction. -/
  | gating (admission : StoreCall)
  /-- Inside the commit gate, before the transaction. -/
  | committing (admission : StoreCall)
  /-- Inside the commit gate, after the transaction. -/
  | admitting (admission : StoreCall) (outcome : AdmissionOutcome)
  /-- `finish_admission`. -/
  | dispatching (outcome : AdmissionOutcome)
  /-- Failed; the request may have been admitted all the same. -/
  | failing (error : SatelleError)

/-- What happens to an operation. -/
inductive OperationStep where
  /-- The store is asked for a replay. -/
  | replay (input : IdempotencyInput) (expectedSessionId : Option SessionId)
  /-- A readiness check has seen the cancellation. -/
  | finish (outcome : CancellationFinish)
  | ready (admission : StoreCall)
  | enter
  | commit
  | acknowledge
  | dispatch
  /-- Something fails before the store is asked. -/
  | fail (error : SatelleError)

/-- What becomes of an operation. -/
inductive OperationNext (Reply : Type) where
  | goes (pc : AdmissionPc)
  | returns (result : SharedResult Reply)

/-- The operation returns the latest Turn of the admitted Session. -/
def OperationNext.admitted (session : PublicSession) : Option (OperationNext Reply) :=
  session.turns.getLast?.map fun turn => .returns (.ok (.admission session turn.turnId))

namespace AdmissionPc

/-- The place after a step, with the store and the token it leaves. -/
def step (codec : TimeCodec) (request : OperationRequest) (db : Database)
    (token : AdmissionCancellation) :
    AdmissionPc → OperationStep →
      Option (Database × AdmissionCancellation × OperationNext Reply)
  | .replaying, .replay input expectedSessionId =>
    if request.presents input then
      match replayClosure codec input expectedSessionId db with
      | .error error => some (db, token, .returns (.error error))
      | .ok (some session) => (OperationNext.admitted session).map (db, token, ·)
      | .ok none => some (db, token, .goes .preparing)
    else none
  | .replaying, .fail error => some (db, token, .returns (.error error))
  | .preparing, .finish outcome => some (db, token.finish outcome, .goes .preparing)
  | .preparing, .fail error => some (db, token, .goes (.failing error))
  | .preparing, .ready admission =>
    if admission.admissionInput.any request.presents then some (db, token, .goes (.gating admission))
    else none
  | .gating admission, .enter =>
    match token.enterCommitGate with
    | none => none
    | some (entered, true) => some (db, entered, .goes (.committing admission))
    | some (refused, false) =>
      some (db, refused, .goes (.failing .interruptedAttachedCommand))
  | .committing admission, .commit =>
    match serve codec db admission with
    | (.ok (.admission outcome), after) => some (after, token, .goes (.admitting admission outcome))
    | (.error error, after) =>
      some (after, token.leaveCommitGate, .goes (.failing (storageFailure error)))
    | (.ok _, _) => none
  | .committing _, .fail error => some (db, token.leaveCommitGate, .goes (.failing error))
  | .admitting admission outcome, .acknowledge =>
    admission.admissionTarget.map fun (sessionId, turnId) =>
      (db, .committed sessionId turnId, .goes (.dispatching outcome))
  | .dispatching outcome, .dispatch =>
    (OperationNext.admitted outcome.session.toPublic).map (db, token, ·)
  | .dispatching _, .fail error => some (db, token, .goes (.failing error))
  | .failing error, .replay input expectedSessionId =>
    if request.presents input then
      match replayClosure codec input expectedSessionId db with
      | .ok (some session) => (OperationNext.admitted session).map (db, token, ·)
      | .ok none | .error _ => some (db, token, .returns (.error error))
    else none
  | .failing error, .fail _ => some (db, token, .returns (.error error))
  | _, _ => none

/-- A panic lets the commit gate go. -/
def unwound (token : AdmissionCancellation) : AdmissionPc → AdmissionCancellation
  | .committing _ | .admitting _ _ => token.leaveCommitGate
  | .replaying | .preparing | .gating _ | .dispatching _ | .failing _ => token

end AdmissionPc

/-! ## The Host -/

/-- The calls of the slot, the operations of their leaders, and the store. -/
structure AdmissionHost (Reply : Type) where
  system : System Reply
  operations : ThreadId → AdmissionPc
  store : Database

/-- The closure a call is in, with its request. -/
def Thread.closure : Thread Reply → Option (OperationRequest × Closure)
  | .execute request _ pc => pc.calling.map (request, ·)
  | .cancel request pc => pc.calling.map (request, ·)
  | .exclusive _ => none

inductive HostAction (Reply : Type) where
  | call (id : ThreadId) (thread : Thread Reply)
  | advance (id : ThreadId)
  /-- A closure of an admission asks the store. -/
  | consult (id : ThreadId) (input : IdempotencyInput) (expectedSessionId : Option SessionId)
  /-- It fails before it does. -/
  | fail (id : ThreadId) (error : SatelleError)
  /-- The operation of an admission takes a step. -/
  | operate (id : ThreadId) (step : OperationStep)
  | panic (id : ThreadId)
  /-- The closures of all other operations may answer anything. -/
  | answer (id : ThreadId) (answer : Answer Reply)
  /-- The holder of a token asks for the cancellation. -/
  | request (token : TokenId)
  /-- Anyone else uses the store. -/
  | serve (call : StoreCall)

namespace AdmissionHost
variable {Reply : Type}

def new (store : Database) : AdmissionHost Reply := ⟨.new, fun _ => .replaying, store⟩

/-- A step of the slot alone. -/
def within (host : AdmissionHost Reply) (action : Action Reply) : Option (AdmissionHost Reply) :=
  (host.system.perform action).map fun system => { host with system := system }

/-- A closure has answered and left this store. -/
def answered (host : AdmissionHost Reply) (id : ThreadId) (store : Database)
    (answer : Except SatelleError (DurableAdmissionOutcome Reply)) :
    Option (AdmissionHost Reply) :=
  ({ host with store := store } : AdmissionHost Reply).within (.resume id (.durable answer))

def consult (codec : TimeCodec) (host : AdmissionHost Reply) (id : ThreadId)
    (input : IdempotencyInput) (expectedSessionId : Option SessionId) :
    Option (AdmissionHost Reply) :=
  match (host.system.threads id).bind Thread.closure with
  | some (request, .resolve) =>
    if request.isAdmission ∧ request.presents input then
      host.answered id host.store (resolveClosure codec input expectedSessionId host.store)
    else none
  | some (request, .persistCancellation outcome) =>
    if request.isAdmission ∧ request.presents input then
      (persistCall input expectedSessionId outcome).bind fun call =>
        let served := Host.serve codec host.store call
        (persisted served.1).bind (host.answered id served.2)
    else none
  | some (_, .operation) | none => none

/-- The operation goes on, or returns to the slot. -/
def operated (host : AdmissionHost Reply) (id : ThreadId) (tokenId : TokenId) (store : Database)
    (token : AdmissionCancellation) : OperationNext Reply → Option (AdmissionHost Reply)
  | .goes pc => some {
      system := { host.system with capacity := host.system.capacity.setToken tokenId token }
      operations := fun other => if other = id then pc else host.operations other
      store := store }
  | .returns result =>
    ({ system := { host.system with capacity := host.system.capacity.setToken tokenId token }
       operations := host.operations
       store := store } : AdmissionHost Reply).within (.resume id (.result result))

def operate (codec : TimeCodec) (host : AdmissionHost Reply) (id : ThreadId)
    (step : OperationStep) : Option (AdmissionHost Reply) :=
  match host.system.threads id with
  | some (.execute request token (.leading _)) =>
    if request.isAdmission then
      ((host.operations id).step codec request host.store (host.system.capacity.tokens token)
        step).bind fun (store, after, next) => host.operated id token store after next
    else none
  | _ => none

/-- The closure a call is in panics. -/
def panic (host : AdmissionHost Reply) (id : ThreadId) : Option (AdmissionHost Reply) :=
  match host.system.threads id with
  | some (.execute _ token (.leading _)) =>
    let released := (host.operations id).unwound (host.system.capacity.tokens token)
    ({ host with system := { host.system with
        capacity := host.system.capacity.setToken token released } } :
          AdmissionHost Reply).within (.resume id .panic)
  | some _ => host.within (.resume id .panic)
  | none => none

/-- The request of a call, if it is to admit a Turn. -/
def admission (host : AdmissionHost Reply) (id : ThreadId) : Option OperationRequest :=
  match host.system.threads id with
  | some (.execute request _ _) | some (.cancel request _) =>
    if request.isAdmission then some request else none
  | some (.exclusive _) | none => none

def perform (codec : TimeCodec) (host : AdmissionHost Reply) :
    HostAction Reply → Option (AdmissionHost Reply)
  | .call id thread => host.within (.call id thread)
  | .advance id => host.within (.advance id)
  | .consult id input expectedSessionId => host.consult codec id input expectedSessionId
  | .fail id error => host.within (.resume id (.durable (.error error)))
  | .operate id step => host.operate codec id step
  | .panic id => host.panic id
  | .answer id answer =>
    if host.admission id = none then host.within (.resume id answer) else none
  | .request token => host.within (.token token .request)
  | .serve call => some { host with store := (Host.serve codec host.store call).2 }

end AdmissionHost

end Satelle.Host
