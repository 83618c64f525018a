import Satelle.Core.PublicSession
import Satelle.Host.Sql

/-! The transactions that admit, advance and recover Turns
(`host/storage.rs`, `host/storage/sql.rs`). A transaction is a function from
the store to its reply and the store it commits; an error is a rollback. -/
namespace Satelle.Host
open Satelle.Core
open StorageError (fail ofLifecycle)

inductive AdmissionOutcome where
  | execute (session : Session) (recoverySubject : RecoverySubject)
  | inProgress (session : Session)
  | complete (session : Session)
  deriving DecidableEq

structure AdmissionReplay where
  outcome : AdmissionOutcome
  sessionId : SessionId
  turnId : TurnId
  deriving DecidableEq

inductive DurableCancellationOutcome where
  | cancelled | recoveryPending
  deriving DecidableEq, Repr

def DurableCancellationOutcome.token : DurableCancellationOutcome → String
  | .cancelled => "cancelled"
  | .recoveryPending => "recovery_pending"

def DurableCancellationOutcome.parse : String → Except StorageError DurableCancellationOutcome
  | "cancelled" => .ok .cancelled
  | "recovery_pending" => .ok .recoveryPending
  | _ => fail .invalidStoredState

inductive DurableAdmissionState where
  | missing
  | admitted (replay : AdmissionReplay)
  | cancelled
  | recoveryPending
  deriving DecidableEq

def DurableAdmissionState.ofCancellation : DurableCancellationOutcome → DurableAdmissionState
  | .cancelled => .cancelled
  | .recoveryPending => .recoveryPending

section Operations
variable (codec : TimeCodec)

/-! ## Replays -/

def validateReplayedTurnOutcome (record : IdempotencyRow) (session : Session) (turnId : TurnId) :
    Except StorageError Unit := do
  let turn ← orFail .invalidStoredState (session.turn turnId)
  ensure (record.durableOutcome = turnIdempotencyToken turn.state) .invalidStoredState

/-- What a record promises: the current Session while its Turn runs, the
Session as the Turn left it afterwards. -/
def replayedOutcome (db : Database) (record : IdempotencyRow) (sessionId : SessionId)
    (turnId : TurnId) : Except StorageError AdmissionOutcome :=
  match record.status with
  | "in_progress" => do
    let session ← loadRequiredSession codec db sessionId
    validateReplayedTurnOutcome record session turnId
    return .inProgress session
  | "terminal" => do
    let sessionRevision ← orFail .invalidStoredState record.resultSessionStateRevision
    let sessionUpdatedAt ← orFail .invalidStoredState record.resultSessionUpdatedAt
    let session ← loadSessionAtOperationOutcome codec db sessionId turnId sessionRevision
      sessionUpdatedAt
    validateReplayedTurnOutcome record session turnId
    return .complete session
  | _ => fail .invalidStoredState

def replayAdmission (db : Database) (record : IdempotencyRow)
    (expectedSessionId : Option SessionId) : Except StorageError AdmissionReplay := do
  let sessionId ← orFail .invalidStoredState (record.sessionId.bind PublicId.parse)
  let turnId ← orFail .invalidStoredState (record.turnId.bind PublicId.parse)
  ensure (∀ expected ∈ expectedSessionId, expected = sessionId) .idempotencyConflict
  let outcome ← replayedOutcome codec db record sessionId turnId
  return { outcome := outcome, sessionId := sessionId, turnId := turnId }

def replayAdmissionIfPresent (db : Database) (operation : IdempotentOperation)
    (input : IdempotencyInput) (expectedSessionId : Option SessionId) :
    Except StorageError (Option AdmissionReplay) := do
  requireOperation input operation
  let record ← matchingIdempotency db input
  record.mapM fun record => replayAdmission codec db record expectedSessionId

/-- A cancelled tombstone expires; one that waits for recovery does not. -/
def cancellationExpired (outcome : DurableCancellationOutcome) (expiresAt : String)
    (observedAt : OffsetDateTime) : Except StorageError Bool :=
  match outcome with
  | .cancelled => (parseTime codec expiresAt).map (fun time => decide (time ≤ observedAt))
  | .recoveryPending => .ok false

def matchingAdmissionCancellation (db : Database) (input : IdempotencyInput)
    (observedAt : OffsetDateTime) : Except StorageError (Option DurableCancellationOutcome) :=
  match db.admissionCancellations.lookup input.recordKey with
  | none => .ok none
  | some row => do
    let outcome ← DurableCancellationOutcome.parse row.outcome
    let expired ← cancellationExpired codec outcome row.expiresAt observedAt
    if expired then .ok none
    else if row.requestDigest ≠ input.requestDigest ∨
        row.digestSchemaVersion ≠ input.digestSchemaVersion ∨
        row.hmacKeyVersion ≠ input.hmacKeyVersion then fail .idempotencyConflict
    else .ok (some outcome)

/-! ## Cancellations -/

def resolveAdmissionOperation (db : Database) (operation : IdempotentOperation)
    (input : IdempotencyInput) (expectedSessionId : Option SessionId)
    (observedAt : OffsetDateTime) : Except StorageError DurableAdmissionState := do
  requireOperation input operation
  match ← matchingIdempotency db input with
  | some record => do
    let replay ← replayAdmission codec db record expectedSessionId
    return .admitted replay
  | none => do
    let found ← matchingAdmissionCancellation codec db input observedAt
    return found.elim .missing DurableAdmissionState.ofCancellation

/-- The selection of a tombstone by its key. -/
def AdmissionCancellationRow.isOf (input : IdempotencyInput) (row : AdmissionCancellationRow) :
    Bool :=
  row.key = input.recordKey

/-- `UPDATE … SET outcome = 'cancelled'` with a new life time. -/
def settleCancellation (db : Database) (input : IdempotencyInput) (observedAt : OffsetDateTime) :
    Except StorageError Database := do
  let createdAt ← formatTime codec observedAt
  let expiresAt ← formatTime codec (observedAt + idempotencyRetention)
  let rows := db.admissionCancellations.updateWhere (AdmissionCancellationRow.isOf input)
    (fun row => { row with outcome := "cancelled", createdAt := createdAt, expiresAt := expiresAt })
    (fun _ => rfl)
  return { db with admissionCancellations := rows }

/-- `UPDATE … SET outcome = 'recovery_pending'`. -/
def suspendCancellation (db : Database) (input : IdempotencyInput) : Database :=
  let rows := db.admissionCancellations.updateWhere (AdmissionCancellationRow.isOf input)
    (fun row => { row with outcome := "recovery_pending" })
    (fun _ => rfl)
  { db with admissionCancellations := rows }

/-- Replaces an expired tombstone, if there is one. Only admissions can be
cancelled: the table accepts no other operation. -/
def insertCancellation (db : Database) (input : IdempotencyInput)
    (outcome : DurableCancellationOutcome) (observedAt : OffsetDateTime) :
    Except StorageError Database := do
  let createdAt ← formatTime codec observedAt
  let expiresAt ← formatTime codec (observedAt + idempotencyRetention)
  ensure (input.operation = .run ∨ input.operation = .steer) .operationFailed
  ensure (input.hmacKeyVersion ∈ db.hmacKeyVersions) .operationFailed
  let cleared := db.admissionCancellations.deleteWhere (AdmissionCancellationRow.isOf input)
  let rows ← orFail .operationFailed (cleared.insert {
    principalRef := input.principalRef.text
    operation := idempotentOperationToken input.operation
    idempotencyKey := input.key.text
    requestDigest := input.requestDigest
    digestSchemaVersion := input.digestSchemaVersion
    hmacKeyVersion := input.hmacKeyVersion
    outcome := outcome.token
    createdAt := createdAt
    expiresAt := expiresAt })
  return { db with admissionCancellations := rows }

/-- The transaction's effect on a request that was not admitted, by the
tombstone that is visible. -/
def cancelUnadmitted (db : Database) (input : IdempotencyInput)
    (outcome : DurableCancellationOutcome) (observedAt : OffsetDateTime) (reconciled : Bool) :
    Option DurableCancellationOutcome → Except StorageError (DurableAdmissionState × Database)
  | some .recoveryPending =>
    if reconciled ∧ outcome = .cancelled then do
      let db ← settleCancellation codec db input observedAt
      return (.cancelled, db)
    else .ok (.recoveryPending, db)
  | some .cancelled =>
    if outcome = .recoveryPending then .ok (.recoveryPending, suspendCancellation db input)
    else .ok (.cancelled, db)
  | none => do
    let db ← insertCancellation codec db input outcome observedAt
    return (.ofCancellation outcome, db)

def recordAdmissionCancellationInner (db : Database) (operation : IdempotentOperation)
    (input : IdempotencyInput) (expectedSessionId : Option SessionId)
    (outcome : DurableCancellationOutcome) (observedAt : OffsetDateTime) (reconciled : Bool) :
    Except StorageError (DurableAdmissionState × Database) := do
  requireOperation input operation
  match ← matchingIdempotency db input with
  | some record => do
    let replay ← replayAdmission codec db record expectedSessionId
    return (.admitted replay, db)
  | none => do
    let existing ← matchingAdmissionCancellation codec db input observedAt
    cancelUnadmitted codec db input outcome observedAt reconciled existing

def recordAdmissionCancellation (db : Database) (operation : IdempotentOperation)
    (input : IdempotencyInput) (expectedSessionId : Option SessionId)
    (outcome : DurableCancellationOutcome) (observedAt : OffsetDateTime) :
    Except StorageError (DurableAdmissionState × Database) :=
  recordAdmissionCancellationInner codec db operation input expectedSessionId outcome observedAt
    false

def reconcileAdmissionCancellation (db : Database) (operation : IdempotentOperation)
    (input : IdempotencyInput) (expectedSessionId : Option SessionId)
    (outcome : DurableCancellationOutcome) (observedAt : OffsetDateTime) :
    Except StorageError (DurableAdmissionState × Database) :=
  recordAdmissionCancellationInner codec db operation input expectedSessionId outcome observedAt
    true

/-! ## Admissions -/

def logAdmission (db : Database) (event : LogEvent) (session : Session) (turnId : TurnId)
    (readiness : Option AdmissionReadinessRef) : Except StorageError Database := do
  let db ← logTurn codec db event .info session turnId session.updatedAt
  match readiness with
  | none => return db
  | some readiness => do
    let db ← logTurn codec db .nativeReadinessSummary .info session turnId session.updatedAt
    match readiness.provider with
    | none => return db
    | some _ => logTurn codec db .providerSmokeSummary .info session turnId session.updatedAt

/-- The evidence is optional. -/
def insertReadinessRef (db : Database) (turnId : TurnId) :
    Option AdmissionReadinessRef → Except StorageError Database
  | some readiness => insertAdmissionReadiness codec db turnId readiness
  | none => .ok db

/-- What both admissions write once the Turn's rows are in place: the evidence,
the lease, the record and the logs. -/
def recordAdmission (db : Database) (event : LogEvent) (session : Session) (turnId : TurnId)
    (context : AdmissionContext) : Except StorageError (AdmissionOutcome × Database) := do
  let db ← insertReadinessRef codec db turnId context.readinessRef
  let db ← insertControlLease codec db session turnId context.leaseOwner
  let db ← insertIdempotency codec db context.idempotency "in_progress" "v1.turn.starting"
    session.id turnId
  let db ← logAdmission codec db event session turnId context.readinessRef
  let subject ← loadRecoverySubject codec db session turnId
  return (.execute session subject, db)

/-- `begin_session` for a request that no record and no tombstone answers. -/
def admitSession (db : Database) (session : Session) (turnId : TurnId)
    (context : AdmissionContext) (now : OffsetDateTime) :
    Except StorageError (AdmissionOutcome × Database) := do
  let cancelled ← matchingAdmissionCancellation codec db context.idempotency
    context.idempotency.createdAt
  ensure (cancelled = none) .admissionCancelled
  ensureControlLeaseAvailable codec db session.hostIdentity session.desktopBinding now
  let db ← insertInitialSession codec db session context.requestToken
  recordAdmission codec db .sessionStarted session turnId context

def beginSession (db : Database) (session : Session) (context : AdmissionContext)
    (now : OffsetDateTime) : Except StorageError (AdmissionOutcome × Database) := do
  requireOperation context.idempotency .run
  ensure (context.idempotency.operationId = context.leaseOwner.operationId) .invalidInput
  validateInitialSession session
  let turn ← orFail .invalidInput session.turns.head?
  match ← matchingIdempotency db context.idempotency with
  | some record => do
    let replay ← replayAdmission codec db record none
    return (replay.outcome, db)
  | none => admitSession codec db session turn.id context now

/-- A follow-up that needs the upstream thread is refused without one. -/
def ensureUpstreamThread (db : Database) (sessionId : SessionId) (required : Bool) :
    Except StorageError Unit :=
  if required then do
    let refs ← orFail .invalidStoredState (db.sessionPrivateRefs.lookup sessionId.text)
    let thread ← orFail .sessionNotSteerable refs.upstreamThreadRef
    ensure (isPrivateReference thread = true) .invalidStoredState
  else .ok ()

/-- `begin_follow_up` for a request that no record and no tombstone answers. -/
def admitFollowUp (db : Database) (sessionId : SessionId) (expected : SessionStateRevision)
    (turnId : TurnId) (executionPolicy : ExecutionPolicy) (time : OffsetDateTime)
    (requiresUpstreamThread : Bool) (context : AdmissionContext) (now : OffsetDateTime) :
    Except StorageError (AdmissionOutcome × Database) := do
  let cancelled ← matchingAdmissionCancellation codec db context.idempotency
    context.idempotency.createdAt
  ensure (cancelled = none) .admissionCancelled
  let before ← loadRequiredSession codec db sessionId
  if before.activity ≠ .idle then .error (.leaseConflict before.id)
  else
    ensureUpstreamThread db sessionId requiresUpstreamThread
    let started := before.startFollowUp expected turnId executionPolicy time
    let _ ← started.1.mapError ofLifecycle
    let session := started.2
    ensureControlLeaseAvailable codec db session.hostIdentity session.desktopBinding now
    let db ← updateSessionRow codec db session before.revision
    let turn ← orFail .invalidStoredState (session.turn turnId)
    let db ← insertTurn codec db sessionId (session.turns.length - 1) turn context.requestToken
    recordAdmission codec db .followUpStarted session turnId context

def beginFollowUp (db : Database) (sessionId : SessionId) (expected : SessionStateRevision)
    (turnId : TurnId) (executionPolicy : ExecutionPolicy) (time : OffsetDateTime)
    (requiresUpstreamThread : Bool) (context : AdmissionContext) (now : OffsetDateTime) :
    Except StorageError (AdmissionOutcome × Database) := do
  requireOperation context.idempotency .steer
  ensure (context.idempotency.operationId = context.leaseOwner.operationId) .invalidInput
  match ← matchingIdempotency db context.idempotency with
  | some record => do
    let replay ← replayAdmission codec db record (some sessionId)
    return (replay.outcome, db)
  | none =>
    admitFollowUp codec db sessionId expected turnId executionPolicy time requiresUpstreamThread
      context now

/-! ## Progress and recovery -/

def isStructuredExecutionError : TurnTransition → Bool
  | .blocked | .failed | .recoveryFailed => true
  | .running | .recoveryPending | .completed => false

/-- A pending stop owns the next nonterminal transition; a terminal result may
still win. -/
def ensureStopYields (db : Database) (sessionId : SessionId) (turnId : TurnId) :
    TurnTransition → Except StorageError Unit
  | .running | .recoveryPending => ensureNoPendingStop db sessionId turnId
  | .completed | .blocked | .failed | .recoveryFailed => .ok ()

def logExecutionError (db : Database) (transition : TurnTransition) (session : Session)
    (turnId : TurnId) : Except StorageError Database :=
  if isStructuredExecutionError transition then
    logTurn codec db .structuredExecutionError .error session turnId session.updatedAt
  else .ok db

def commitLifecycle (db : Database) (sessionId : SessionId) (turnId : TurnId)
    (expected : ExpectedRevisions) (transition : TurnTransition) (time : OffsetDateTime) :
    Except StorageError (Session × Database) := do
  ensureStopYields db sessionId turnId transition
  let before ← loadRequiredSession codec db sessionId
  let moved := before.transitionTurn turnId expected transition time
  let _ ← moved.1.mapError ofLifecycle
  let session := moved.2
  let db ← persistLifecycleMutation codec db session turnId expected
  let db ← synchronizeControlLease db session turnId
  let db ← updateTurnIdempotency codec db session turnId time
  let db ← logTurn codec db .turnStateCommitted .info session turnId session.updatedAt
  let db ← logExecutionError codec db transition session turnId
  return (session, db)

/-- `record_upstream_ref`. -/
def recordUpstreamRef (db : Database) (sessionId : SessionId) (turnId : TurnId)
    (observed : ObservedUpstreamRef) : Except StorageError Database :=
  mergeObservedReference db sessionId turnId observed

/-- The Turn an activity names. -/
def activeTurn : SessionActivity → Option (TurnId × TurnStateRevision)
  | .idle => none
  | .starting turnId revision | .running turnId revision | .recoveryPending turnId revision =>
    some (turnId, revision)

/-- A Turn that is in recovery already is not written again. -/
def persistRecovery (db : Database) (session : Session) (turnId : TurnId)
    (expected : ExpectedRevisions) (time : OffsetDateTime) :
    LifecycleMutation → Except StorageError Database
  | .committed _ => do
    let db ← persistLifecycleMutation codec db session turnId expected
    updateTurnIdempotency codec db session turnId time
  | .unchanged _ => .ok db

/-- The body of the loop of `mark_restart_recovery_pending`. -/
def markSessionRecoveryPending (db : Database) (sessionId : SessionId) (now : OffsetDateTime) :
    Except StorageError (RecoverySubject × Database) := do
  let before ← loadRequiredSession codec db sessionId
  let (turnId, turnRevision) ← orFail .invalidStoredState (activeTurn before.activity)
  let expected : ExpectedRevisions := ⟨before.revision, turnRevision⟩
  let time := max now before.updatedAt
  let marked := before.markActiveRecoveryPending expected time
  let mutation ← marked.1.mapError ofLifecycle
  let session := marked.2
  let db ← persistRecovery codec db session turnId expected time mutation
  let db ← setLeaseState db sessionId turnId "recovery_pending"
  let db ← logTurn codec db .restartRecoveryPending .warning session turnId time
  let subject ← loadRecoverySubject codec db session turnId
  return (subject, db)

/-- `clock` is the reading taken for each Session. -/
def markRestartRecoveryPending (db : Database) (clock : SessionId → OffsetDateTime) :
    Except StorageError (List RecoverySubject × Database) := do
  let db := markProbeLeases db
  let sessionIds ← activeSessionIds db
  sessionIds.foldlM (fun (subjects, db) sessionId => do
    let (subject, db) ← markSessionRecoveryPending codec db sessionId (clock sessionId)
    return (subjects ++ [subject], db)) ([], db)

end Operations

end Satelle.Host
