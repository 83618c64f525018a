import Satelle.Host.Sql

/-! Removing expired metadata (`host/storage/retention.rs` and the log part of
`host/storage/sql.rs`): logs first, then tombstones and sessionless records,
then whole Sessions with everything that hangs off them, then setup runs. -/
namespace Satelle.Host
open Satelle.Core Lib

/-! ## Logs -/

/-- The cursor up to which logs are expired, unless there is no log. -/
def expiredThrough (logs : List LogRow) (cutoffNanos : Int) : Option Nat :=
  match ((logs.filter fun log => cutoffNanos ≤ log.recordedAtUnixNanos).map (·.logCursor)).min? with
  | some firstRetained => some (firstRetained - 1)
  | none => (logs.map (·.logCursor)).max?

def pruneExpiredLogs (db : Database) (cutoffNanos : Int) : Database :=
  match expiredThrough db.logs cutoffNanos with
  | none => db
  | some through => { db with
      logs := db.logs.filter fun log => through < log.logCursor
      expiredThroughCursor := max db.expiredThroughCursor through }

def logsNeedPruning (db : Database) (cutoffNanos : Int) : Bool :=
  db.logs.any fun log =>
    (db.logs.map (·.logCursor)).min? = some log.logCursor && log.recordedAtUnixNanos < cutoffNanos

section Retention
variable (codec : TimeCodec)

/-! ## Tombstones and sessionless records -/

/-- Whether a stored expiry has passed. -/
def hasExpired (observedAt : OffsetDateTime) (expiresAt : String) : Except StorageError Bool :=
  (parseTime codec expiresAt).map fun time => decide (time ≤ observedAt)

def expiredAdmissionCancellations (db : Database) (observedAt : OffsetDateTime) :
    Except StorageError (List AdmissionCancellationRow) :=
  selectM (fun row => hasExpired codec observedAt row.expiresAt)
    (db.admissionCancellations.rows.filter fun row => row.outcome = "cancelled")

def pruneExpiredAdmissionCancellations (db : Database) (observedAt : OffsetDateTime) :
    Except StorageError Database := do
  let expired ← expiredAdmissionCancellations codec db observedAt
  let rows := db.admissionCancellations.deleteWhere fun row => row.key ∈ expired.map (·.key)
  return { db with admissionCancellations := rows }

/-- The tombstones are scanned only up to the first expired one. -/
def admissionCancellationsNeedPruning (db : Database) (observedAt : OffsetDateTime) :
    Except StorageError Bool :=
  (db.admissionCancellations.rows.filter fun row => row.outcome = "cancelled").anyM
    fun row => hasExpired codec observedAt row.expiresAt

/-- The records without a Session that retention may remove. -/
def IdempotencyRow.isSessionlessReplay (record : IdempotencyRow) : Bool :=
  record.sessionId.isNone &&
    ((record.operation = idempotentOperationToken .providerDescriptorValidation &&
        (record.status = "in_progress" || record.status = "terminal")) ||
      (([.providerSecretProvisioning, .providerBindingAuthorization, .providerBindingDeletion,
          .setupVerification, .nativeReadinessInvalidation, .storageMigration].map
          idempotentOperationToken).contains record.operation && record.status = "terminal"))

def expiredSessionlessIdempotency (db : Database) (observedAt : OffsetDateTime) :
    Except StorageError (List IdempotencyRow) :=
  selectM (fun record => hasExpired codec observedAt record.expiresAt)
    (db.idempotencyRecords.rows.filter IdempotencyRow.isSessionlessReplay)

def pruneExpiredSessionlessIdempotency (db : Database) (observedAt : OffsetDateTime) :
    Except StorageError Database := do
  let expired ← expiredSessionlessIdempotency codec db observedAt
  let records := db.idempotencyRecords.deleteWhere fun record =>
    record.key ∈ expired.map (·.key) && record.sessionId.isNone
  return { db with idempotencyRecords := records }

/-! ## Sessions -/

/-- The Turn with the largest ordinal. -/
def latestTurn (db : Database) (sessionId : String) : Option TurnRow :=
  db.turns.rows.find? fun row => row.sessionId = sessionId &&
    db.turns.rows.all fun other => other.sessionId ≠ sessionId || other.ordinal ≤ row.ordinal

def hasNonterminalTurn (db : Database) (sessionId : String) : Bool :=
  db.turns.rows.any fun row => row.sessionId = sessionId && row.terminalAt.isNone

def hasControlLease (db : Database) (sessionId : String) : Bool :=
  db.controlLeases.rows.any fun lease => lease.sessionId = some sessionId

/-- The Sessions whose last Turn is terminal and that nothing retains, with the
time that Turn ended. -/
def retirableSessions (db : Database) (cutoffNanos : Int) : List (String × String) :=
  ((db.sessions.rows.map (·.sessionId)).insertionSort (· ≤ ·)).filterMap fun sessionId => do
    let latest ← latestTurn db sessionId
    let terminalAt ← latest.terminalAt
    if hasNonterminalTurn db sessionId || hasControlLease db sessionId ||
        (db.logs.any fun log =>
          log.sessionId = some sessionId && cutoffNanos ≤ log.recordedAtUnixNanos) ||
        (db.recordingAudit.rows.any fun recording => recording.sessionId = sessionId &&
          (recording.status = "capturing" || recording.status = "retained")) then none
    else some (sessionId, terminalAt)

def terminalSessionCandidates (db : Database) (cutoff : OffsetDateTime) (cutoffNanos : Int) :
    Except StorageError (List SessionId) := do
  let ended ← selectM (fun candidate =>
    (parseTime codec candidate.2).map fun time => decide (time < cutoff))
    (retirableSessions db cutoffNanos)
  ended.mapM fun candidate => orFail .invalidStoredState (PublicId.parse candidate.1)

def idempotencyRecordsAllowDeletion (db : Database) (sessionId : SessionId)
    (observedAt : OffsetDateTime) : Except StorageError Bool :=
  (db.idempotencyRecords.rows.filter fun record => record.sessionId = some sessionId.text).allM
    fun record => hasExpired codec observedAt record.expiresAt

/-- `DELETE FROM sessions` with its guards, and what the foreign keys make of
it: Turns and their rows go with the Session, a lease or record that still
names one of them refuses the deletion, logs keep their row without the Turn. -/
def deleteSessionMetadata (db : Database) (sessionId : SessionId) :
    Except StorageError Database := do
  let records := db.idempotencyRecords.deleteWhere fun record =>
    record.sessionId = some sessionId.text
  let sessions ← orFail .stateConflict (db.sessions.deleteOne fun row =>
    row.sessionId = sessionId.text && !hasControlLease db row.sessionId &&
      !hasNonterminalTurn db row.sessionId &&
      !(db.logs.any fun log => log.sessionId = some row.sessionId))
  let turnIds := (db.turnRows sessionId).map (·.turnId)
  ensure (records.rows.all fun record => record.turnId.all (· ∉ turnIds)) .operationFailed
  ensure (db.controlLeases.rows.all fun lease => lease.turnId.all (· ∉ turnIds)) .operationFailed
  return { db with
    idempotencyRecords := records
    sessions := sessions
    sessionPrivateRefs := db.sessionPrivateRefs.deleteWhere (·.sessionId = sessionId.text)
    turns := db.turns.deleteWhere (·.sessionId = sessionId.text)
    turnPrivateRefs := db.turnPrivateRefs.deleteWhere (·.turnId ∈ turnIds)
    turnPolicies := db.turnPolicies.deleteWhere (·.turnId ∈ turnIds)
    turnAdmissionReadiness := db.turnAdmissionReadiness.deleteWhere (·.turnId ∈ turnIds)
    recordingAudit := db.recordingAudit.deleteWhere (·.sessionId = sessionId.text)
    logs := db.logs.map fun log =>
      { log with turnId := log.turnId.filter (· ∉ turnIds) } }

/-- One iteration of the loop over the candidates. -/
def retireSession (observedAt : OffsetDateTime) (db : Database) (sessionId : SessionId) :
    Except StorageError Database := do
  let allowed ← idempotencyRecordsAllowDeletion codec db sessionId observedAt
  if allowed then deleteSessionMetadata db sessionId else .ok db

/-! ## Setup runs -/

def SetupRunRow.isTerminal (run : SetupRunRow) : Bool :=
  run.status = "completed" || run.status = "failed" || run.status = "partial_failure"

/-- The end of a setup run; a terminal run without one is a failed read. -/
def setupRunEnd (run : SetupRunRow) : Except StorageError (OffsetDateTime × String) := do
  let finishedAt ← orFail .operationFailed run.finishedAt
  let time ← parseTime codec finishedAt
  return (time, run.runId)

def terminalSetupRunCandidates (db : Database) (cutoff : OffsetDateTime) :
    Except StorageError (List String) := do
  let ends ← (db.setupRuns.rows.filter SetupRunRow.isTerminal).mapM (setupRunEnd codec)
  return ((ends.filter fun run => decide (run.1 < cutoff)).insertionSort
    (fun a b => a.1 < b.1 ∨ (a.1 = b.1 ∧ a.2 ≤ b.2))).map (·.2)

/-- The actions of a run go with it. -/
def deleteSetupRunMetadata (db : Database) (runId : String) : Except StorageError Database := do
  let setupRuns ← orFail .stateConflict
    (db.setupRuns.deleteOne fun run => run.runId = runId && run.isTerminal)
  return { db with
    setupRuns := setupRuns
    setupActions := db.setupActions.deleteWhere (·.runId = runId) }

/-! ## The pass -/

/-- The times a pass compares with. -/
structure RetentionCutoffs where
  session : OffsetDateTime
  logNanos : Int
  setup : OffsetDateTime

def retentionCutoffs (observedAt : OffsetDateTime) (sessionRetention logRetention
    setupLedgerRetention : Int) : Except StorageError RetentionCutoffs := do
  let session ← orFail .invalidInput (checkedAdd observedAt (-sessionRetention))
  let log ← orFail .invalidInput (checkedAdd observedAt (-logRetention))
  let logNanos ← unixTimestampNanos log
  let setup ← orFail .invalidInput (checkedAdd observedAt (-setupLedgerRetention))
  return ⟨session, logNanos, setup⟩

def auditNeedsPruning (db : Database) (cutoffNanos : Int) : Bool :=
  db.clientCertificateAudit.any (· < cutoffNanos) || db.rawDiagnosticAudit.any (· < cutoffNanos) ||
    db.desktopSnapshotAudit.any (· < cutoffNanos)

def pruneAudit (db : Database) (cutoffNanos : Int) : Database :=
  { db with
    clientCertificateAudit := db.clientCertificateAudit.filter (cutoffNanos ≤ ·)
    rawDiagnosticAudit := db.rawDiagnosticAudit.filter (cutoffNanos ≤ ·)
    desktopSnapshotAudit := db.desktopSnapshotAudit.filter (cutoffNanos ≤ ·) }

/-- The read-only check that spares the write transaction; each test is made
only when the earlier ones found nothing. -/
def retentionNeedsPruning (db : Database) (cutoffs : RetentionCutoffs)
    (observedAt : OffsetDateTime) : Except StorageError Bool :=
  if logsNeedPruning db cutoffs.logNanos || auditNeedsPruning db cutoffs.logNanos then .ok true
  else do
    let tombstones ← admissionCancellationsNeedPruning codec db observedAt
    if tombstones then return true
    else
      let sessionless ← expiredSessionlessIdempotency codec db observedAt
      if sessionless ≠ [] then return true
      else
        let candidates ← terminalSessionCandidates codec db cutoffs.session cutoffs.logNanos
        let sessions ← candidates.anyM fun sessionId =>
          idempotencyRecordsAllowDeletion codec db sessionId observedAt
        if sessions then return true
        else
          let runs ← terminalSetupRunCandidates codec db cutoffs.setup
          return runs ≠ []

/-- The write transaction. -/
def pruneExpired (db : Database) (cutoffs : RetentionCutoffs) (observedAt : OffsetDateTime) :
    Except StorageError Database := do
  let db := pruneAudit (pruneExpiredLogs db cutoffs.logNanos) cutoffs.logNanos
  let db ← pruneExpiredAdmissionCancellations codec db observedAt
  let db ← pruneExpiredSessionlessIdempotency codec db observedAt
  let candidates ← terminalSessionCandidates codec db cutoffs.session cutoffs.logNanos
  let db ← candidates.foldlM (retireSession codec observedAt) db
  let runs ← terminalSetupRunCandidates codec db cutoffs.setup
  runs.foldlM deleteSetupRunMetadata db

/-- `logRetention` is the setting the open store holds. -/
def pruneExpiredSessionMetadataWithRetention (db : Database) (observedAt : OffsetDateTime)
    (sessionRetention logRetention setupLedgerRetention : Int) :
    Except StorageError Database := do
  let cutoffs ← retentionCutoffs observedAt sessionRetention logRetention setupLedgerRetention
  let needed ← retentionNeedsPruning codec db cutoffs observedAt
  if needed then pruneExpired codec db cutoffs observedAt else .ok db

end Retention

end Satelle.Host
