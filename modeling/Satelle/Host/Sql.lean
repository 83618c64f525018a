import Satelle.Host.Codec

/-! The statements of `host/storage/sql.rs`. A statement that writes returns
the store it leaves; the surrounding transaction keeps the old store when any
of its statements fails. A failed constraint is `OperationFailed`, except on
`control_leases`. -/
namespace Satelle.Host
open Satelle.Core
open StorageError (fail)

/-- `IDEMPOTENCY_RETENTION`, 24 hours in nanoseconds. -/
def idempotencyRetention : Int := 24 * 3600 * 1000000000

/-- `DEFAULT_LEASE_STALE_AFTER`, 30 seconds. -/
def defaultLeaseStaleAfter : Int := 30 * 1000000000

/-- The instants `OffsetDateTime` can hold: the years -9999 to 9999. -/
def firstInstant : OffsetDateTime := -377705116800000000000
def lastInstant : OffsetDateTime := 253402300799999999999

/-- `checked_add` and, with a negated duration, `checked_sub`. -/
def checkedAdd (time : OffsetDateTime) (duration : Int) : Option OffsetDateTime :=
  if firstInstant ≤ time + duration ∧ time + duration ≤ lastInstant then some (time + duration)
  else none

/-! ## Requests -/

def isRequestDigest (value : String) : Bool :=
  value.utf8ByteSize = 64 && value.toList.all isLowerHex

/-- An accepted `IdempotencyInput::new`. -/
structure IdempotencyInput where
  principalRef : PrivateReference
  operation : IdempotentOperation
  key : PrivateReference
  operationId : PrivateReference
  requestDigest : String
  digestSchemaVersion : Nat
  hmacKeyVersion : Nat
  createdAt : OffsetDateTime
  expiresAt : OffsetDateTime
  digestValid : isRequestDigest requestDigest = true
  schemaVersionBounds : 0 < digestSchemaVersion ∧ digestSchemaVersion < 2 ^ 16
  keyVersionBounds : 0 < hmacKeyVersion ∧ hmacKeyVersion < 2 ^ 16
  expiresLater : createdAt < expiresAt

/-- The primary key of the record a request is stored under. -/
def IdempotencyInput.recordKey (input : IdempotencyInput) : String × String × String :=
  (input.principalRef.text, idempotentOperationToken input.operation, input.key.text)

/-- An accepted `LeaseOwner::new`. -/
structure LeaseOwner where
  operationId : PrivateReference
  processId : Nat
  processStartRef : PrivateReference
  bootIdentityRef : PrivateReference
  acquiredAt : OffsetDateTime
  processBounds : 0 < processId ∧ processId < u32Size

inductive NativeReadinessSource where
  | cache | live
  deriving DecidableEq, Repr

inductive ProviderReadinessSource where
  | cache | live | refresh
  deriving DecidableEq, Repr

def NativeReadinessSource.token : NativeReadinessSource → String
  | .cache => "cache"
  | .live => "live"

def NativeReadinessSource.parse : String → Except StorageError NativeReadinessSource
  | "cache" => .ok .cache
  | "live" => .ok .live
  | _ => fail .invalidInput

def ProviderReadinessSource.token : ProviderReadinessSource → String
  | .cache => "cache"
  | .live => "live"
  | .refresh => "refresh"

def ProviderReadinessSource.parse : String → Except StorageError ProviderReadinessSource
  | "cache" => .ok .cache
  | "live" => .ok .live
  | "refresh" => .ok .refresh
  | _ => fail .invalidInput

structure AdmissionProviderReadinessRef where
  resultId : PrivateReference
  observedAt : OffsetDateTime
  source : ProviderReadinessSource
  deriving DecidableEq

structure AdmissionReadinessRef where
  nativeResultId : PrivateReference
  nativeObservedAt : OffsetDateTime
  nativeSource : NativeReadinessSource
  provider : Option AdmissionProviderReadinessRef
  deriving DecidableEq

structure AdmissionContext where
  leaseOwner : LeaseOwner
  idempotency : IdempotencyInput
  requestToken : PrivateReference
  readinessRef : Option AdmissionReadinessRef

structure RecoverySubject where
  sessionId : SessionId
  desktopBinding : DesktopBindingRef
  turnId : TurnId
  turnState : TurnState
  expectedRevisions : ExpectedRevisions
  hostIdentity : HostIdentityRef
  requestToken : PrivateReference
  upstreamThreadRef : Option PrivateReference
  upstreamTurnRef : Option PrivateReference
  upstreamGoalRef : Option PrivateReference
  admissionReadiness : Option AdmissionReadinessRef
  deriving DecidableEq

inductive ObservedUpstreamRef where
  | thread (reference : PrivateReference)
  | turn (reference : PrivateReference)
  | goal (reference : PrivateReference)

/-! ## Logs -/

inductive LogSource where
  | hostDaemon | storage | codexAdapter
  deriving DecidableEq, Repr

inductive LogSeverity where
  | info | warning | error
  deriving DecidableEq, Repr

inductive LogEvent where
  | sessionStarted | followUpStarted | nativeReadinessSummary | providerSmokeSummary
  | turnStateCommitted | structuredExecutionError | stopConfirmed | stopNotConfirmed
  | restartRecoveryPending | turnQueued | queuePositionChanged | turnDequeued
  | turnQueueCancelled | turnQueueExpired | turnQueueValidationFailed | storeOpened
  deriving DecidableEq, Repr

def logSourceToken : LogSource → String
  | .hostDaemon => "host_daemon"
  | .storage => "storage"
  | .codexAdapter => "codex_adapter"

def logSeverityToken : LogSeverity → String
  | .info => "info"
  | .warning => "warning"
  | .error => "error"

def logEventToken : LogEvent → String
  | .sessionStarted => "session_started"
  | .followUpStarted => "follow_up_started"
  | .nativeReadinessSummary => "native_readiness_summary"
  | .providerSmokeSummary => "provider_smoke_summary"
  | .turnStateCommitted => "turn_state_committed"
  | .structuredExecutionError => "structured_execution_error"
  | .stopConfirmed => "stop_confirmed"
  | .stopNotConfirmed => "stop_not_confirmed"
  | .restartRecoveryPending => "restart_recovery_pending"
  | .turnQueued => "turn_queued"
  | .queuePositionChanged => "queue_position_changed"
  | .turnDequeued => "turn_dequeued"
  | .turnQueueCancelled => "turn_queue_cancelled"
  | .turnQueueExpired => "turn_queue_expired"
  | .turnQueueValidationFailed => "turn_queue_validation_failed"
  | .storeOpened => "store_opened"

def LogEvent.source : LogEvent → LogSource
  | .providerSmokeSummary | .turnStateCommitted | .structuredExecutionError => .codexAdapter
  | .storeOpened => .storage
  | _ => .hostDaemon

inductive LogSubjectKind where
  | host | turn | queue
  deriving DecidableEq, Repr

def LogEvent.subjectKind : LogEvent → LogSubjectKind
  | .storeOpened => .host
  | .turnQueued | .queuePositionChanged | .turnDequeued | .turnQueueCancelled
  | .turnQueueExpired | .turnQueueValidationFailed => .queue
  | _ => .turn

/-- The status a queue request is in after each event about it. -/
def LogEvent.matchesQueueStatus : LogEvent → QueueRequestStatus → Bool
  | .turnQueued, .queued => true
  | .queuePositionChanged, .queued => true
  | .turnDequeued, .admitted => true
  | .turnQueueCancelled, .cancelled => true
  | .turnQueueExpired, .expired => true
  | .turnQueueValidationFailed, .validationFailed => true
  | _, _ => false

/-- The fields of `LogSubject::Turn`. -/
structure TurnLogSubject where
  desktopBinding : DesktopBindingRef
  sessionId : SessionId
  turnId : TurnId
  sessionStateRevision : SessionStateRevision
  turnStateRevision : TurnStateRevision

/-- Every caller passes the text of a checked `DesktopBindingRef`. -/
inductive LogSubject where
  | host
  | turn (subject : TurnLogSubject)
  | queue (desktopBinding : DesktopBindingRef) (queueStatus : QueueStatus)

def LogSubject.kind : LogSubject → LogSubjectKind
  | .host => .host
  | .turn _ => .turn
  | .queue _ _ => .queue

structure SafeLogRecord where
  recordedAt : OffsetDateTime
  source : LogSource
  severity : LogSeverity
  event : LogEvent
  subject : LogSubject

/-- The check of a queue subject. -/
def LogSubject.fits (event : LogEvent) : LogSubject → Bool
  | .queue _ queueStatus =>
    queueStatus.validate.isOk && event.matchesQueueStatus queueStatus.status
  | .host | .turn _ => true

def SafeLogRecord.new (recordedAt : OffsetDateTime) (source : LogSource) (severity : LogSeverity)
    (event : LogEvent) (subject : LogSubject) : Except StorageError SafeLogRecord := do
  ensure (event.subjectKind = subject.kind) .invalidInput
  ensure (subject.fits event) .invalidInput
  return ⟨recordedAt, source, severity, event, subject⟩

/-- No event about a Turn is `StoreOpened`, so the check of the kind covers the
one of `canonical_log`. -/
def canonicalLog (event : LogEvent) (severity : LogSeverity) (session : Session) (turnId : TurnId)
    (recordedAt : OffsetDateTime) : Except StorageError SafeLogRecord := do
  let turn ← orFail .invalidStoredState (session.turn turnId)
  SafeLogRecord.new recordedAt event.source severity event
    (.turn ⟨session.desktopBinding, session.id, turnId, session.revision, turn.revision⟩)

def queueLog (event : LogEvent) (severity : LogSeverity) (desktopBinding : DesktopBindingRef)
    (status : QueueStatus) (recordedAt : OffsetDateTime) : Except StorageError SafeLogRecord :=
  SafeLogRecord.new recordedAt event.source severity event (.queue desktopBinding status)

/-- The columns that depend on the subject of an entry. -/
structure LogSubjectColumns where
  desktopBindingRef : Option String := none
  sessionId : Option String := none
  turnId : Option String := none
  sessionStateRevision : Option String := none
  turnStateRevision : Option String := none
  queueStatus : Option QueueStatus := none

def LogSubject.columns : LogSubject → LogSubjectColumns
  | .host => {}
  | .turn subject => {
      desktopBindingRef := some subject.desktopBinding.text
      sessionId := some subject.sessionId.text
      turnId := some subject.turnId.text
      sessionStateRevision := some (formatRevision subject.sessionStateRevision)
      turnStateRevision := some (formatRevision subject.turnStateRevision) }
  | .queue desktopBinding queueStatus => {
      desktopBindingRef := some desktopBinding.text
      sessionId := queueStatus.sessionId.map (·.text)
      turnId := queueStatus.turnId.map (·.text)
      queueStatus := some queueStatus }

/-- The foreign keys of `logs`. -/
def LogSubjectColumns.referenced (columns : LogSubjectColumns) (db : Database) : Bool :=
  (columns.sessionId.all fun id => (db.sessions.lookup id).isSome) &&
    columns.turnId.all fun id => (db.turns.lookup id).isSome

section Statements
variable (codec : TimeCodec)

/-- The rows are kept in cursor order, so the last one carries the latest time.
Recorded times never move backwards. -/
def insertSafeLog (db : Database) (record : SafeLogRecord) : Except StorageError Database := do
  let requestedNanos ← unixTimestampNanos record.recordedAt
  let effectiveNanos := match db.logs.getLast? with
    | some prior => max prior.recordedAtUnixNanos requestedNanos
    | none => requestedNanos
  let columns := record.subject.columns
  let recordedAt ← formatTime codec effectiveNanos
  ensure (columns.referenced db) .operationFailed
  return { db with
    logSequence := db.logSequence + 1
    logs := db.logs ++ [{
      logCursor := db.logSequence + 1
      recordedAt := recordedAt
      recordedAtUnixNanos := effectiveNanos
      source := logSourceToken record.source
      severity := logSeverityToken record.severity
      eventKind := logEventToken record.event
      desktopBindingRef := columns.desktopBindingRef
      sessionId := columns.sessionId
      turnId := columns.turnId
      sessionStateRevision := columns.sessionStateRevision
      turnStateRevision := columns.turnStateRevision
      queueStatus := columns.queueStatus }] }

/-- `insert_safe_log` of a `canonical_log`, as every operation writes it. -/
def logTurn (db : Database) (event : LogEvent) (severity : LogSeverity) (session : Session)
    (turnId : TurnId) (recordedAt : OffsetDateTime) : Except StorageError Database := do
  let record ← canonicalLog event severity session turnId recordedAt
  insertSafeLog codec db record

/-! ## Sessions and Turns -/

def validateInitialSession (session : Session) : Except StorageError Unit :=
  match session.turns with
  | [turn] =>
    if session.revision ≠ .initial ∨ session.createdAt ≠ session.updatedAt ∨
        turn.revision ≠ .initial ∨ turn.state ≠ .starting ∨
        turn.startedAt ≠ session.createdAt ∨ turn.updatedAt ≠ session.createdAt ∨
        turn.terminalAt.isSome ∨ turn.safeSummary.isSome then fail .invalidInput
    else .ok ()
  | _ => fail .invalidInput

/-- The states the index `one_active_turn_per_session` covers. -/
def isActiveToken (state : String) : Bool :=
  state = "starting" || state = "running" || state = "recovery_pending"

/-- `INSERT INTO turns`. -/
def insertTurnRow (db : Database) (row : TurnRow) : Except StorageError Database := do
  ensure (db.turns.rows.all fun other =>
    other.sessionId ≠ row.sessionId ||
      (other.ordinal ≠ row.ordinal && !(isActiveToken other.state && isActiveToken row.state)))
    .operationFailed
  let turns ← orFail .operationFailed (db.turns.insert row)
  return { db with turns := turns }

/-- `INSERT INTO turn_private_refs`. -/
def insertTurnPrivateRefs (db : Database) (row : TurnPrivateRefsRow) :
    Except StorageError Database := do
  ensure (db.turnPrivateRefs.rows.all fun other => other.requestToken ≠ row.requestToken)
    .operationFailed
  let turnPrivateRefs ← orFail .operationFailed (db.turnPrivateRefs.insert row)
  return { db with turnPrivateRefs := turnPrivateRefs }

def turnPolicyRow (turnId : TurnId) (policy : ExecutionPolicy) : TurnPolicyRow where
  turnId := turnId.text
  effectiveModelRef := policy.effectiveModel.text
  providerBindingRef := policy.providerBinding.text
  desktopBindingRef := policy.desktopTarget.binding.text
  desktopSessionId := policy.desktopTarget.sessionId
  approvalPolicy := approvalPolicyToken policy.approvalPolicy
  sandboxPolicy := sandboxPolicyToken policy.sandboxPolicy
  timeoutSeconds := policy.timeoutPolicy.seconds
  computerUseEnabled := featureChoiceInteger policy.experimentalFeatures.computerUse
  providerComputerUseEnabled := featureChoiceInteger policy.experimentalFeatures.providerComputerUse

def insertTurn (db : Database) (sessionId : SessionId) (ordinal : Nat) (turn : Turn)
    (requestToken : PrivateReference) : Except StorageError Database := do
  ensure (ordinal < 2 ^ 63) .invalidInput
  let startedAt ← formatTime codec turn.startedAt
  let updatedAt ← formatTime codec turn.updatedAt
  let terminalAt ← turn.terminalAt.mapM (formatTime codec)
  let db ← insertTurnRow db {
    turnId := turn.id.text
    sessionId := sessionId.text
    ordinal := ordinal
    turnStateRevision := formatRevision turn.revision
    state := turnStateToken turn.state
    startedAt := startedAt
    updatedAt := updatedAt
    terminalAt := terminalAt
    safeSummary := turn.safeSummary.map safeSummaryToken }
  let db ← insertTurnPrivateRefs db { turnId := turn.id.text, requestToken := requestToken.text }
  let turnPolicies ← orFail .operationFailed
    (db.turnPolicies.insert (turnPolicyRow turn.id turn.executionPolicy))
  return { db with turnPolicies := turnPolicies }

def insertInitialSession (db : Database) (session : Session) (requestToken : PrivateReference) :
    Except StorageError Database := do
  let identity ← orFail .invalidStoredState db.daemonIdentity
  ensure (identity = session.hostIdentity.text) .invalidInput
  let createdAt ← formatTime codec session.createdAt
  let updatedAt ← formatTime codec session.updatedAt
  let sessions ← orFail .operationFailed (db.sessions.insert {
    sessionId := session.id.text
    displayName := session.displayName
    sessionStateRevision := formatRevision session.revision
    createdAt := createdAt
    updatedAt := updatedAt })
  let sessionPrivateRefs ← orFail .operationFailed (db.sessionPrivateRefs.insert {
    sessionId := session.id.text
    hostIdentityRef := session.hostIdentity.text
    desktopBindingRef := session.desktopBinding.text })
  let turn ← orFail .invalidInput session.turns.head?
  insertTurn codec { db with sessions := sessions, sessionPrivateRefs := sessionPrivateRefs }
    session.id 0 turn requestToken

def insertAdmissionReadiness (db : Database) (turnId : TurnId) (readiness : AdmissionReadinessRef) :
    Except StorageError Database := do
  let nativeObservedAt ← formatTime codec readiness.nativeObservedAt
  let providerObservedAt ← readiness.provider.mapM fun provider =>
    formatTime codec provider.observedAt
  let rows ← orFail .operationFailed (db.turnAdmissionReadiness.insert {
    turnId := turnId.text
    nativeResultId := readiness.nativeResultId.text
    nativeObservedAt := nativeObservedAt
    nativeSource := readiness.nativeSource.token
    providerResultId := readiness.provider.map (·.resultId.text)
    providerObservedAt := providerObservedAt
    providerSource := readiness.provider.map (·.source.token) })
  return { db with turnAdmissionReadiness := rows }

/-- The compare-and-swap of the Session row. -/
def updateSessionRow (db : Database) (session : Session) (expected : SessionStateRevision) :
    Except StorageError Database := do
  let updatedAt ← formatTime codec session.updatedAt
  let sessions ← orFail .stateConflict (db.sessions.updateOne
    (fun row => row.sessionId = session.id.text &&
      row.sessionStateRevision = formatRevision expected)
    (fun row => { row with
      sessionStateRevision := formatRevision session.revision
      updatedAt := updatedAt })
    (fun _ => rfl))
  return { db with sessions := sessions }

def persistLifecycleMutation (db : Database) (session : Session) (turnId : TurnId)
    (expected : ExpectedRevisions) : Except StorageError Database := do
  let db ← updateSessionRow codec db session expected.session
  let turn ← orFail .invalidStoredState (session.turn turnId)
  let updatedAt ← formatTime codec turn.updatedAt
  let terminalAt ← turn.terminalAt.mapM (formatTime codec)
  let turns ← orFail .stateConflict (db.turns.updateOne
    (fun row => row.turnId = turnId.text && row.sessionId = session.id.text &&
      row.turnStateRevision = formatRevision expected.turn)
    (fun row => { row with
      turnStateRevision := formatRevision turn.revision
      state := turnStateToken turn.state
      updatedAt := updatedAt
      terminalAt := terminalAt
      safeSummary := turn.safeSummary.map safeSummaryToken })
    (fun _ => rfl))
  return { db with turns := turns }

/-- `COALESCE` of an upstream reference: set once, and only to a value no other
row holds. -/
def mergeObservedReference (db : Database) (sessionId : SessionId) (turnId : TurnId)
    (observed : ObservedUpstreamRef) : Except StorageError Database := do
  ensure ((db.turnRows sessionId).any fun row => row.turnId = turnId.text) .invalidStoredState
  match observed with
  | .thread reference => do
    let rows ← orFail .privateReferenceConflict (db.sessionPrivateRefs.updateOne
      (fun row => row.sessionId = sessionId.text &&
        row.upstreamThreadRef.all (· = reference.text) &&
        db.sessionPrivateRefs.rows.all fun existing =>
          existing.sessionId = sessionId.text || existing.upstreamThreadRef ≠ some reference.text)
      (fun row => { row with upstreamThreadRef := row.upstreamThreadRef.or (some reference.text) })
      (fun _ => rfl))
    return { db with sessionPrivateRefs := rows }
  | .turn reference => do
    let rows ← orFail .privateReferenceConflict (db.turnPrivateRefs.updateOne
      (fun row => row.turnId = turnId.text &&
        row.upstreamTurnRef.all (· = reference.text) &&
        db.turnPrivateRefs.rows.all fun existing =>
          existing.turnId = turnId.text || existing.upstreamTurnRef ≠ some reference.text)
      (fun row => { row with upstreamTurnRef := row.upstreamTurnRef.or (some reference.text) })
      (fun _ => rfl))
    return { db with turnPrivateRefs := rows }
  | .goal reference => do
    let rows ← orFail .privateReferenceConflict (db.sessionPrivateRefs.updateOne
      (fun row => row.sessionId = sessionId.text &&
        row.upstreamGoalRef.all (· = reference.text) &&
        db.sessionPrivateRefs.rows.all fun existing =>
          existing.sessionId = sessionId.text || existing.upstreamGoalRef ≠ some reference.text)
      (fun row => { row with upstreamGoalRef := row.upstreamGoalRef.or (some reference.text) })
      (fun _ => rfl))
    return { db with sessionPrivateRefs := rows }

/-! ## Control leases -/

inductive LeaseFreshness where
  | fresh | stale
  deriving DecidableEq, Repr

def classifyLeaseFreshness (heartbeatAt : String) (observedAt : OffsetDateTime) :
    Except StorageError LeaseFreshness := do
  let heartbeat ← parseTime codec heartbeatAt
  let staleAfter ← orFail .invalidStoredState (checkedAdd heartbeat defaultLeaseStaleAfter)
  return if staleAfter < observedAt then .stale else .fresh

def isProbeKind (ownerKind : String) : Bool :=
  ownerKind = "provider_probe" || ownerKind = "native_probe" || ownerKind = "desktop_snapshot"

/-- What a held lease is reported as. -/
def heldLease (lease : ControlLeaseRow) : StorageError :=
  if isProbeKind lease.ownerKind && lease.sessionId.isNone then { kind := .leaseConflict }
  else
    match lease.sessionId.bind PublicId.parse with
    | some sessionId => .leaseConflict sessionId
    | none => { kind := .invalidStoredState }

/-- `now` is the clock reading of the call. -/
def ensureControlLeaseAvailable (db : Database) (hostIdentity : HostIdentityRef)
    (desktopBinding : DesktopBindingRef) (now : OffsetDateTime) : Except StorageError Unit :=
  match db.maintenanceLeases.lookup hostIdentity.text,
      db.controlLeases.lookup (hostIdentity.text, desktopBinding.text) with
  | some maintenance, _ => do
    let _ ← classifyLeaseFreshness codec maintenance.heartbeatAt now
    fail .leaseConflict
  | none, some control => do
    let _ ← classifyLeaseFreshness codec control.heartbeatAt now
    .error (heldLease control)
  | none, none => .ok ()

def insertControlLease (db : Database) (session : Session) (turnId : TurnId) (owner : LeaseOwner) :
    Except StorageError Database := do
  let acquiredAt ← formatTime codec owner.acquiredAt
  ensure (db.controlLeases.rows.all fun other =>
    other.ownerKind ≠ "turn" || other.turnId ≠ some turnId.text) .leaseConflict
  let controlLeases ← orFail .leaseConflict (db.controlLeases.insert {
    hostIdentityRef := session.hostIdentity.text
    desktopBindingRef := session.desktopBinding.text
    operationId := owner.operationId.text
    ownerProcessId := owner.processId
    ownerProcessStartRef := owner.processStartRef.text
    ownerBootIdentityRef := owner.bootIdentityRef.text
    acquiredAt := acquiredAt
    heartbeatAt := acquiredAt
    leaseState := "active"
    ownerKind := "turn"
    sessionId := some session.id.text
    turnId := some turnId.text })
  return { db with controlLeases := controlLeases }

/-- The condition `session_id = ?1 AND turn_id = ?2`. -/
def ControlLeaseRow.ownedBy (sessionId : SessionId) (turnId : TurnId) (lease : ControlLeaseRow) :
    Bool :=
  lease.sessionId = some sessionId.text && lease.turnId = some turnId.text

/-- `UPDATE control_leases SET lease_state`, which must hit one lease. -/
def setLeaseState (db : Database) (sessionId : SessionId) (turnId : TurnId) (leaseState : String) :
    Except StorageError Database := do
  let controlLeases ← orFail .invalidStoredState (db.controlLeases.updateOne
    (ControlLeaseRow.ownedBy sessionId turnId)
    (fun lease => { lease with leaseState := leaseState })
    (fun _ => rfl))
  return { db with controlLeases := controlLeases }

def leaseStateToken (state : TurnState) : String :=
  if state = .recoveryPending then "recovery_pending" else "active"

def synchronizeControlLease (db : Database) (session : Session) (turnId : TurnId) :
    Except StorageError Database := do
  let turn ← orFail .invalidStoredState (session.turn turnId)
  if turn.state.isTerminal then
    let controlLeases ← orFail .invalidStoredState
      (db.controlLeases.deleteOne (ControlLeaseRow.ownedBy session.id turnId))
    return { db with controlLeases := controlLeases }
  else setLeaseState db session.id turnId (leaseStateToken turn.state)

def ensureControlLeaseAbsent (db : Database) (sessionId : SessionId) (turnId : TurnId) :
    Except StorageError Unit :=
  ensure (db.controlLeases.rows.any (ControlLeaseRow.ownedBy sessionId turnId) = false)
    .invalidStoredState

def ensureControlLeasePresent (db : Database) (sessionId : SessionId) (turnId : TurnId) :
    Except StorageError Unit :=
  ensure (db.controlLeases.rows.any (ControlLeaseRow.ownedBy sessionId turnId) = true)
    .invalidStoredState

/-- The part of a restart that hands the leases of interrupted probes to
recovery. -/
def markProbeLeases (db : Database) : Database :=
  let controlLeases := db.controlLeases.updateWhere
    (fun lease => (lease.ownerKind = "provider_probe" || lease.ownerKind = "native_probe") &&
      lease.leaseState = "active")
    (fun lease => { lease with leaseState := "recovery_pending" })
    ControlLeaseRow.key_pending
  { db with controlLeases := controlLeases }

/-- `SELECT DISTINCT session_id … ORDER BY session_id` over the active Turns. -/
def activeSessionIds (db : Database) : Except StorageError (List SessionId) :=
  ((((db.turns.rows.filter fun row => isActiveToken row.state).map (·.sessionId)).dedup).insertionSort
    (· ≤ ·)).mapM fun value => orFail .invalidStoredState (PublicId.parse value)

/-! ## Idempotency records -/

def requireOperation (input : IdempotencyInput) (expected : IdempotentOperation) :
    Except StorageError Unit :=
  ensure (input.operation = expected) .invalidInput

/-- Whether a record was stored for this very request. -/
def IdempotencyRow.matches (record : IdempotencyRow) (input : IdempotencyInput) : Bool :=
  record.requestDigest = input.requestDigest &&
    record.digestSchemaVersion = input.digestSchemaVersion &&
    record.hmacKeyVersion = input.hmacKeyVersion

def matchingIdempotency (db : Database) (input : IdempotencyInput) :
    Except StorageError (Option IdempotencyRow) :=
  match db.idempotencyRecords.lookup input.recordKey with
  | none => .ok none
  | some record => if record.matches input then .ok (some record) else fail .idempotencyConflict

def ensureRecordHandles (record : IdempotencyRow) (sessionId : SessionId) (turnId : TurnId) :
    Except StorageError Unit :=
  ensure (record.sessionId = some sessionId.text ∧ record.turnId = some turnId.text)
    .idempotencyConflict

/-- Every caller stores an open record, so `completed_at` is `NULL`. -/
def insertIdempotency (db : Database) (input : IdempotencyInput) (status durableOutcome : String)
    (sessionId : SessionId) (turnId : TurnId) : Except StorageError Database := do
  let createdAt ← formatTime codec input.createdAt
  let expiresAt ← formatTime codec input.expiresAt
  ensure (input.hmacKeyVersion ∈ db.hmacKeyVersions) .operationFailed
  ensure (db.idempotencyRecords.rows.all fun other =>
    other.operationId ≠ input.operationId.text ||
      other.operation ≠ idempotentOperationToken input.operation) .operationFailed
  let records ← orFail .operationFailed (db.idempotencyRecords.insert {
    principalRef := input.principalRef.text
    operation := idempotentOperationToken input.operation
    idempotencyKey := input.key.text
    operationId := input.operationId.text
    requestDigest := input.requestDigest
    digestSchemaVersion := input.digestSchemaVersion
    hmacKeyVersion := input.hmacKeyVersion
    status := status
    durableOutcome := durableOutcome
    sessionId := some sessionId.text
    turnId := some turnId.text
    resultSessionStateRevision := none
    resultSessionUpdatedAt := none
    createdAt := createdAt
    completedAt := none
    expiresAt := expiresAt })
  return { db with idempotencyRecords := records }

/-- The condition that selects the admission record of a Turn. -/
def IdempotencyRow.admits (sessionId : SessionId) (turnId : TurnId) (record : IdempotencyRow) :
    Bool :=
  record.sessionId = some sessionId.text && record.turnId = some turnId.text &&
    (record.operation = "run" || record.operation = "steer")

def updateTurnIdempotency (db : Database) (session : Session) (turnId : TurnId)
    (time : OffsetDateTime) : Except StorageError Database := do
  let turn ← orFail .invalidStoredState (session.turn turnId)
  if turn.state.isTerminal then
    let completedAt ← formatTime codec time
    let updatedAt ← formatTime codec session.updatedAt
    let expiresAt ← formatTime codec (time + idempotencyRetention)
    let records ← orFail .invalidStoredState (db.idempotencyRecords.updateOne
      (IdempotencyRow.admits session.id turnId)
      (fun record => { record with
        status := "terminal"
        durableOutcome := turnIdempotencyToken turn.state
        completedAt := some completedAt
        resultSessionStateRevision := some (formatRevision session.revision)
        resultSessionUpdatedAt := some updatedAt
        expiresAt := expiresAt })
      (fun _ => rfl))
    return { db with idempotencyRecords := records }
  else
    let records ← orFail .invalidStoredState (db.idempotencyRecords.updateOne
      (IdempotencyRow.admits session.id turnId)
      (fun record => { record with
        status := "in_progress"
        durableOutcome := turnIdempotencyToken turn.state
        completedAt := none
        resultSessionStateRevision := none
        resultSessionUpdatedAt := none })
      (fun _ => rfl))
    return { db with idempotencyRecords := records }

def completeStopIdempotency (db : Database) (input : IdempotencyInput) (durableOutcome : String)
    (session : Session) (time : OffsetDateTime) : Except StorageError Database := do
  let completedAt ← formatTime codec time
  let expiresAt ← formatTime codec (time + idempotencyRetention)
  let updatedAt ← formatTime codec session.updatedAt
  let records ← orFail .stateConflict (db.idempotencyRecords.updateOne
    (fun record => record.principalRef = input.principalRef.text && record.operation = "stop" &&
      record.idempotencyKey = input.key.text && record.requestDigest = input.requestDigest &&
      record.status = "in_progress")
    (fun record => { record with
      status := "terminal"
      durableOutcome := durableOutcome
      completedAt := some completedAt
      expiresAt := expiresAt
      resultSessionStateRevision := some (formatRevision session.revision)
      resultSessionUpdatedAt := some updatedAt })
    (fun _ => rfl))
  return { db with idempotencyRecords := records }

def ensureNoPendingStop (db : Database) (sessionId : SessionId) (turnId : TurnId) :
    Except StorageError Unit :=
  ensure (db.idempotencyRecords.rows.all fun record =>
    !(record.operation = "stop" && record.sessionId = some sessionId.text &&
      record.turnId = some turnId.text && record.status = "in_progress" &&
      record.durableOutcome = "v1.stop.pending")) .stateConflict

/-! ## Recovery subjects -/

/-- The three provider columns are set together or not at all. -/
def providerColumns (row : TurnAdmissionReadinessRow) :
    Except StorageError (Option (String × OffsetDateTime × String)) :=
  match row.providerResultId, row.providerObservedAt, row.providerSource with
  | some resultId, some observedAt, some source => do
    let time ← parseTime codec observedAt
    return some (resultId, time, source)
  | none, none, none => .ok none
  | _, _, _ => fail .invalidStoredState

/-- The evidence of an admission, read back from its row. -/
def storedReadiness (row : TurnAdmissionReadinessRow) :
    Except StorageError AdmissionReadinessRef := do
  let columns ← providerColumns codec row
  let nativeObservedAt ← parseTime codec row.nativeObservedAt
  let nativeSource ← NativeReadinessSource.parse row.nativeSource
  let provider ← columns.mapM fun (resultId, observedAt, source) => do
    let source ← ProviderReadinessSource.parse source
    let resultId ← validatedPrivateReference resultId
    return ({ resultId := resultId, observedAt := observedAt, source := source } :
      AdmissionProviderReadinessRef)
  let nativeResultId ← validatedPrivateReference row.nativeResultId
  return {
    nativeResultId := nativeResultId
    nativeObservedAt := nativeObservedAt
    nativeSource := nativeSource
    provider := provider }

def loadRecoverySubject (db : Database) (session : Session) (turnId : TurnId) :
    Except StorageError RecoverySubject := do
  let turn ← orFail .invalidStoredState (session.turn turnId)
  let row ← orFail .invalidStoredState
    ((db.turnRows session.id).find? fun row => row.turnId = turnId.text)
  let turnRefs ← orFail .invalidStoredState (db.turnPrivateRefs.lookup row.turnId)
  let sessionRefs ← orFail .invalidStoredState (db.sessionPrivateRefs.lookup row.sessionId)
  let admissionReadiness ← (db.turnAdmissionReadiness.lookup row.turnId).mapM
    (storedReadiness codec)
  let requestToken ← validatedPrivateReference turnRefs.requestToken
  let upstreamThreadRef ← sessionRefs.upstreamThreadRef.mapM validatedPrivateReference
  let upstreamTurnRef ← turnRefs.upstreamTurnRef.mapM validatedPrivateReference
  let upstreamGoalRef ← sessionRefs.upstreamGoalRef.mapM validatedPrivateReference
  return {
    sessionId := session.id
    desktopBinding := session.desktopBinding
    turnId := turnId
    turnState := turn.state
    expectedRevisions := ⟨session.revision, turn.revision⟩
    hostIdentity := session.hostIdentity
    requestToken := requestToken
    upstreamThreadRef := upstreamThreadRef
    upstreamTurnRef := upstreamTurnRef
    upstreamGoalRef := upstreamGoalRef
    admissionReadiness := admissionReadiness }

end Statements

end Satelle.Host
