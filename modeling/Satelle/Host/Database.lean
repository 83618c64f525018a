import Satelle.Lib.Table
import Satelle.Core.Queue

/-! The rows of the Host's SQLite store (`host/storage/*.sql`), limited to the
tables and columns that the lifecycle operations read or write. Texts stay
texts: reading them back can fail, and that it does not is what the store's
properties are about. Every table with a primary key is a `Table`; the other
`UNIQUE` constraints are checked by the statements that insert. -/
namespace Satelle.Host
open Satelle.Core Lib

structure SessionRow where
  sessionId : String
  displayName : Option String
  sessionStateRevision : String
  createdAt : String
  updatedAt : String
  deriving DecidableEq, Repr

structure SessionPrivateRefsRow where
  sessionId : String
  hostIdentityRef : String
  desktopBindingRef : String
  upstreamThreadRef : Option String := none
  upstreamGoalRef : Option String := none
  deriving DecidableEq, Repr

structure TurnRow where
  turnId : String
  sessionId : String
  ordinal : Nat
  turnStateRevision : String
  state : String
  startedAt : String
  updatedAt : String
  terminalAt : Option String
  safeSummary : Option String
  deriving DecidableEq, Repr

structure TurnPrivateRefsRow where
  turnId : String
  requestToken : String
  upstreamTurnRef : Option String := none
  deriving DecidableEq, Repr

structure TurnPolicyRow where
  turnId : String
  effectiveModelRef : String
  providerBindingRef : String
  desktopBindingRef : String
  desktopSessionId : String
  approvalPolicy : String
  sandboxPolicy : String
  timeoutSeconds : Int
  computerUseEnabled : Int
  providerComputerUseEnabled : Int
  deriving DecidableEq, Repr

structure TurnAdmissionReadinessRow where
  turnId : String
  nativeResultId : String
  nativeObservedAt : String
  nativeSource : String
  providerResultId : Option String
  providerObservedAt : Option String
  providerSource : Option String
  deriving DecidableEq, Repr

structure ControlLeaseRow where
  hostIdentityRef : String
  desktopBindingRef : String
  operationId : String
  ownerProcessId : Nat
  ownerProcessStartRef : String
  ownerBootIdentityRef : String
  acquiredAt : String
  heartbeatAt : String
  leaseState : String
  ownerKind : String
  sessionId : Option String
  turnId : Option String
  providerProbeRef : Option String := none
  nativeProbeRef : Option String := none
  deriving DecidableEq, Repr

structure MaintenanceLeaseRow where
  hostIdentityRef : String
  operationId : String
  ownerProcessId : Nat
  ownerProcessStartRef : String
  ownerBootIdentityRef : String
  acquiredAt : String
  heartbeatAt : String
  leaseState : String
  deriving DecidableEq, Repr

structure IdempotencyRow where
  principalRef : String
  operation : String
  idempotencyKey : String
  operationId : String
  requestDigest : String
  digestSchemaVersion : Nat
  hmacKeyVersion : Nat
  status : String
  durableOutcome : String
  sessionId : Option String
  turnId : Option String
  resultSessionStateRevision : Option String
  resultSessionUpdatedAt : Option String
  createdAt : String
  completedAt : Option String
  expiresAt : String
  deriving DecidableEq, Repr

structure AdmissionCancellationRow where
  principalRef : String
  operation : String
  idempotencyKey : String
  requestDigest : String
  digestSchemaVersion : Nat
  hmacKeyVersion : Nat
  outcome : String
  createdAt : String
  expiresAt : String
  deriving DecidableEq, Repr

/-- The JSON text of a queue status is kept as the status it encodes. -/
structure LogRow where
  logCursor : Nat
  recordedAt : String
  recordedAtUnixNanos : Int
  source : String
  severity : String
  eventKind : String
  desktopBindingRef : Option String
  sessionId : Option String
  turnId : Option String
  sessionStateRevision : Option String
  turnStateRevision : Option String
  queueStatus : Option QueueStatus := none
  deriving DecidableEq

structure RecordingAuditRow where
  recordingId : String
  sessionId : String
  turnId : String
  status : String
  deriving DecidableEq, Repr

inductive SetupOperationKind where
  | setup | repair | hostUpdate | storageMigration | serviceStop | serviceRestart
  deriving DecidableEq, Repr

inductive SetupActionStatus where
  | planned | started | completed | failed | skipped | outcomeUnknown
  deriving DecidableEq, Repr

inductive SetupActionSkipReason where
  | alreadySatisfied | dependencyFailed | notRequired
  deriving DecidableEq, Repr

structure SetupRunRow where
  runId : String
  hostIdentityRef : String
  desktopBindingRef : Option String
  satelleVersion : String
  operationKind : SetupOperationKind
  status : String
  startedAt : String
  finishedAt : Option String
  hostUpdateTargetVersion : Option String
  hostUpdateArtifactDigest : Option String
  deriving DecidableEq, Repr

/-- A `CHECK` leaves exactly the tokens of the two enumerations, and 0 and 1 for
`retry_safe`. -/
structure SetupActionRow where
  runId : String
  actionId : String
  actionOrder : Nat
  actionLabel : String
  status : SetupActionStatus
  startedAt : Option String
  finishedAt : Option String
  retrySafe : Bool
  errorCode : Option String
  exitStatus : Option Int
  recoveryHint : Option String
  skipReason : Option SetupActionSkipReason
  deriving DecidableEq, Repr

def ControlLeaseRow.key (row : ControlLeaseRow) : String × String :=
  (row.hostIdentityRef, row.desktopBindingRef)

theorem ControlLeaseRow.key_pending : ∀ lease : ControlLeaseRow,
    { lease with leaseState := "recovery_pending" }.key = lease.key := fun _ => rfl

theorem MaintenanceLeaseRow.host_pending : ∀ lease : MaintenanceLeaseRow,
    { lease with leaseState := "recovery_pending" }.hostIdentityRef = lease.hostIdentityRef :=
  fun _ => rfl

def IdempotencyRow.key (row : IdempotencyRow) : String × String × String :=
  (row.principalRef, row.operation, row.idempotencyKey)

def AdmissionCancellationRow.key (row : AdmissionCancellationRow) : String × String × String :=
  (row.principalRef, row.operation, row.idempotencyKey)

def SetupActionRow.key (row : SetupActionRow) : String × String :=
  (row.runId, row.actionId)

/-- The store. `logSequence` is the largest log cursor ever assigned, which
`AUTOINCREMENT` remembers; of the three audit tables only the times that
retention compares are kept. -/
structure Database where
  daemonIdentity : Option String
  hmacKeyVersions : List Nat
  sessions : Table SessionRow (·.sessionId)
  sessionPrivateRefs : Table SessionPrivateRefsRow (·.sessionId)
  turns : Table TurnRow (·.turnId)
  turnPrivateRefs : Table TurnPrivateRefsRow (·.turnId)
  turnPolicies : Table TurnPolicyRow (·.turnId)
  turnAdmissionReadiness : Table TurnAdmissionReadinessRow (·.turnId)
  controlLeases : Table ControlLeaseRow ControlLeaseRow.key
  maintenanceLeases : Table MaintenanceLeaseRow (·.hostIdentityRef)
  idempotencyRecords : Table IdempotencyRow IdempotencyRow.key
  admissionCancellations : Table AdmissionCancellationRow AdmissionCancellationRow.key
  logs : List LogRow
  logSequence : Nat
  expiredThroughCursor : Nat
  recordingAudit : Table RecordingAuditRow (·.recordingId)
  clientCertificateAudit : List Int
  rawDiagnosticAudit : List Int
  desktopSnapshotAudit : List Int
  setupRuns : Table SetupRunRow (·.runId)
  setupActions : Table SetupActionRow SetupActionRow.key

/-! ## Failures -/

/-- The kinds the lifecycle operations report. -/
inductive StorageErrorKind where
  | invalidInput | invalidStoredState | sessionNotFound | sessionNotSteerable | leaseConflict
  | stateConflict | idempotencyConflict | admissionCancelled | privateReferenceConflict
  | operationFailed
  deriving DecidableEq, Repr

structure StorageError where
  kind : StorageErrorKind
  conflictingSession : Option SessionId := none
  conflictingOperation : Option String := none
  source : Option LifecycleError := none
  deriving DecidableEq

namespace StorageError

/-- `StorageError::new`, as the result of an operation. -/
def fail (kind : StorageErrorKind) : Except StorageError α := .error { kind := kind }

def leaseConflict (sessionId : SessionId) : StorageError where
  kind := .leaseConflict
  conflictingSession := some sessionId

def leaseConflictOperation (operationId : String) : StorageError where
  kind := .leaseConflict
  conflictingOperation := some operationId

def withSource (kind : StorageErrorKind) (source : LifecycleError) : StorageError where
  kind := kind
  source := some source

/-- `From<LifecycleError>`. -/
def ofLifecycle (source : LifecycleError) : StorageError := withSource .stateConflict source

end StorageError

/-- `ok_or_else` with a plain error. -/
def orFail (kind : StorageErrorKind) : Option α → Except StorageError α
  | some value => .ok value
  | none => StorageError.fail kind

/-- An early return of a plain error unless the condition holds. -/
def ensure (c : Prop) [Decidable c] (kind : StorageErrorKind) : Except StorageError Unit :=
  if c then .ok () else StorageError.fail kind

@[simp] theorem orFail_ok :
    orFail kind found = .ok a ↔ found = some a := by
  cases found <;> simp [orFail, StorageError.fail]

@[simp] theorem ensure_ok [Decidable c] :
    ensure c kind = .ok a ↔ c := by
  unfold ensure
  split <;> simp_all [StorageError.fail]

end Satelle.Host
