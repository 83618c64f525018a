import Satelle.Host.Sql

/-! The durable turn queue (`host/storage/queue.rs`). A request waits in the
table until it is admitted, withdrawn or failed, and stays there afterwards. Its
position is not stored: it is counted over the requests of the same desktop that
wait, in the order of their texts without the final `Z`. Statements that select
without an order are modelled in the order of insertion. -/
namespace Satelle.Host
open Satelle.Core Lib
open StorageError (fail)

inductive TurnQueueOperation where
  | run | steer
  deriving DecidableEq, Repr

def TurnQueueOperation.asStr : TurnQueueOperation → String
  | .run => "run"
  | .steer => "steer"

def TurnQueueOperation.parse : String → Except StorageError TurnQueueOperation
  | "run" => .ok .run
  | "steer" => .ok .steer
  | _ => fail .invalidStoredState

structure QueueRow where
  queueRequestId : String
  leaseKey : String
  tokenId : String
  credentialRevision : Nat
  principalRef : String
  operation : String
  idempotencyKey : String
  requestDigest : String
  payloadFile : String
  payloadSha256 : String
  status : String
  enqueuedAt : String
  expiresAt : String
  sessionId : Option String
  turnId : Option String := none
  failureCode : Option String := none
  failureMessage : Option String := none
  stateRevision : Nat
  desktopBindingRef : Option String
  deriving DecidableEq, Repr

abbrev QueueTable := Table QueueRow (·.queueRequestId)

/-- The store and the queue in it. -/
structure QueueStore where
  store : Database
  queue : QueueTable

structure NewQueueRecord where
  queueRequestId : QueueRequestId
  leaseKey : String
  desktopBinding : DesktopBindingRef
  tokenId : String
  credentialRevision : Nat
  principalRef : String
  operation : TurnQueueOperation
  idempotencyKey : String
  requestDigest : String
  payloadFile : String
  payloadSha256 : String
  enqueuedAt : OffsetDateTime
  expiresAt : OffsetDateTime
  sessionId : Option SessionId

structure StoredQueueRecord where
  status : QueueStatus
  desktopBinding : DesktopBindingRef
  leaseKey : String
  operation : TurnQueueOperation
  payloadFile : String
  payloadSha256 : String
  deriving DecidableEq

inductive QueueEnqueueOutcome where
  | inserted (record : StoredQueueRecord)
  | replayed (record : StoredQueueRecord)
  | full

structure QueueCancellation where
  record : StoredQueueRecord
  cancelledPosition : Option Nat

/-! ## Reading -/

def parseQueueStatus : String → Except StorageError QueueRequestStatus
  | "queued" => .ok .queued
  | "admitted" => .ok .admitted
  | "cancelled" => .ok .cancelled
  | "expired" => .ok .expired
  | "validation_failed" => .ok .validationFailed
  | _ => fail .invalidStoredState

def QueueRow.isQueued (row : QueueRow) : Bool := row.status = "queued"

/-- `(rtrim(enqueued_at, 'Z'), queue_request_id)`, compared one after the other. -/
def QueueRow.fifoKey (row : QueueRow) : String ×ₗ String :=
  toLex (Rfc3339.trimZ row.enqueuedAt, row.queueRequestId)

/-- The requests of a desktop that wait. -/
def queuedOf (queue : QueueTable) (leaseKey : String) : List QueueRow :=
  queue.rows.filter fun row => row.leaseKey = leaseKey && row.isQueued

/-- The same in the order they are served. -/
def fifoOf (queue : QueueTable) (leaseKey : String) : List QueueRow :=
  (queuedOf queue leaseKey).insertionSort fun a b => a.fifoKey ≤ b.fifoKey

def queuePosition (queue : QueueTable) (row : QueueRow) : Nat :=
  (queuedOf queue row.leaseKey).countP fun other => other.fifoKey ≤ row.fifoKey

/-- The two columns of a failure are set together or not at all. -/
def storedFailure (row : QueueRow) : Except StorageError (Option QueueFailure) :=
  match row.failureCode, row.failureMessage with
  | some code, some message => .ok (some ⟨code, message⟩)
  | none, none => .ok none
  | _, _ => fail .invalidStoredState

/-- The position of a request that waits, as a 16-bit number. -/
def storedPosition (queue : QueueTable) (status : QueueRequestStatus) (row : QueueRow) :
    Except StorageError (Option Nat) :=
  if status = .queued then do
    ensure (queuePosition queue row < u16Size) .invalidStoredState
    return some (queuePosition queue row)
  else .ok none

def decodeQueueRecord (queue : QueueTable) (row : QueueRow) :
    Except StorageError StoredQueueRecord := do
  let bindingText ← orFail .invalidStoredState row.desktopBindingRef
  let desktopBinding ← storedReference bindingText
  let queueRequestId ← orFail .invalidStoredState (PublicId.parse row.queueRequestId)
  let operation ← TurnQueueOperation.parse row.operation
  let status ← parseQueueStatus row.status
  let sessionId ← row.sessionId.mapM fun value => orFail .invalidStoredState (PublicId.parse value)
  let turnId ← row.turnId.mapM fun value => orFail .invalidStoredState (PublicId.parse value)
  let failure ← storedFailure row
  let position ← storedPosition queue status row
  let enqueuedAt ← parseTime rfc3339 row.enqueuedAt
  let expiresAt ← parseTime rfc3339 row.expiresAt
  let status ← orFail .invalidStoredState (QueueStatus.new queueRequestId status position
    enqueuedAt expiresAt sessionId turnId failure row.stateRevision)
  return {
    status := status
    desktopBinding := desktopBinding
    leaseKey := row.leaseKey
    operation := operation
    payloadFile := row.payloadFile
    payloadSha256 := row.payloadSha256 }

/-- `load_queue_record`, which is also `Storage::queue_status`. -/
def loadQueueRecord (queue : QueueTable) (principalRef : String) (queueRequestId : QueueRequestId) :
    Except StorageError (Option StoredQueueRecord) :=
  match queue.lookup queueRequestId.text with
  | none => .ok none
  | some row =>
    if row.principalRef = principalRef then (decodeQueueRecord queue row).map some else .ok none

/-- `load_queue_record_unowned`, which is also `Storage::queue_status_unowned`. -/
def loadQueueRecordUnowned (queue : QueueTable) (queueRequestId : QueueRequestId) :
    Except StorageError (Option StoredQueueRecord) :=
  match queue.lookup queueRequestId.text with
  | none => .ok none
  | some row => (decodeQueueRecord queue row).map some

/-- A record that has to be there. -/
def requireQueueRecord (queue : QueueTable) (queueRequestId : QueueRequestId) :
    Except StorageError StoredQueueRecord := do
  let found ← loadQueueRecordUnowned queue queueRequestId
  orFail .invalidStoredState found

def loadIdempotentQueueRecord (queue : QueueTable) (principalRef : String)
    (operation : TurnQueueOperation) (idempotencyKey : String) :
    Except StorageError (Option (QueueRequestId × String × String)) :=
  match queue.rows.find? fun row => row.principalRef = principalRef &&
      row.operation = operation.asStr && row.idempotencyKey = idempotencyKey with
  | none => .ok none
  | some row => do
    let id ← orFail .invalidStoredState (PublicId.parse row.queueRequestId)
    return some (id, row.requestDigest, row.payloadSha256)

/-- The identifier a row was selected by. -/
def selectedId (row : QueueRow) : Except StorageError QueueRequestId :=
  orFail .invalidStoredState (PublicId.parse row.queueRequestId)

def firstQueuedRequest (queue : QueueTable) (leaseKey : String) :
    Except StorageError (Option StoredQueueRecord) :=
  match (fifoOf queue leaseKey).head? with
  | none => .ok none
  | some row => do
    let id ← selectedId row
    let record ← requireQueueRecord queue id
    return some record

/-! ## Writing -/

/-- `INSERT INTO turn_admission_queue`. -/
def insertQueueRow (queue : QueueTable) (row : QueueRow) : Except StorageError QueueTable := do
  ensure (1 ≤ row.credentialRevision) .operationFailed
  ensure (row.operation ≠ "steer" ∨ row.sessionId.isSome) .operationFailed
  ensure (queue.rows.all fun other => other.payloadFile ≠ row.payloadFile) .operationFailed
  ensure (queue.rows.all fun other => other.principalRef ≠ row.principalRef ||
    other.operation ≠ row.operation || other.idempotencyKey ≠ row.idempotencyKey) .operationFailed
  orFail .operationFailed (queue.insert row)

/-- The requests that wait and meet the condition. -/
def QueueRow.waits (selected : QueueRow → Bool) (row : QueueRow) : Bool :=
  row.isQueued && selected row

/-- Every update of the table is of requests that wait, and adds one to their
revision. The sum may leave the 64-bit integers, and the table accepts no other
number. -/
def updateQueued (queue : QueueTable) (selected : QueueRow → Bool) (change : QueueRow → QueueRow)
    (keeps : ∀ row, (change row).queueRequestId = row.queueRequestId) :
    Except StorageError QueueTable := do
  ensure (queue.rows.all fun row => !row.waits selected || row.stateRevision + 1 < 2 ^ 63)
    .operationFailed
  return queue.updateWhere (·.waits selected)
    (fun row => { change row with stateRevision := row.stateRevision + 1 }) keeps

/-- The log entry of each record. -/
def logQueue (db : Database) (event : LogEvent) (severity : LogSeverity)
    (clock : QueueRequestId → OffsetDateTime) (records : List StoredQueueRecord) :
    Except StorageError Database :=
  records.foldlM (fun db record => do
    let entry ← queueLog event severity record.desktopBinding record.status
      (clock record.status.queueRequestId)
    insertSafeLog rfc3339 db entry) db

def newQueueRow (record : NewQueueRecord) (enqueuedAt expiresAt : String) : QueueRow where
  queueRequestId := record.queueRequestId.text
  leaseKey := record.leaseKey
  tokenId := record.tokenId
  credentialRevision := record.credentialRevision
  principalRef := record.principalRef
  operation := record.operation.asStr
  idempotencyKey := record.idempotencyKey
  requestDigest := record.requestDigest
  payloadFile := record.payloadFile
  payloadSha256 := record.payloadSha256
  status := "queued"
  enqueuedAt := enqueuedAt
  expiresAt := expiresAt
  sessionId := record.sessionId.map (·.text)
  stateRevision := 1
  desktopBindingRef := some record.desktopBinding.text

/-- A request that was not enqueued before. -/
def enqueueNew (state : QueueStore) (record : NewQueueRecord) (maxDepth : Fin u16Size) :
    Except StorageError (QueueEnqueueOutcome × QueueStore) :=
  if maxDepth ≤ (queuedOf state.queue record.leaseKey).length then .ok (.full, state)
  else do
    ensure (record.credentialRevision < 2 ^ 63) .invalidStoredState
    let enqueuedAt ← formatTime rfc3339 record.enqueuedAt
    let expiresAt ← formatTime rfc3339 record.expiresAt
    let queue ← insertQueueRow state.queue (newQueueRow record enqueuedAt expiresAt)
    let found ← loadQueueRecord queue record.principalRef record.queueRequestId
    let stored ← orFail .invalidStoredState found
    let store ← logQueue state.store .turnQueued .info (fun _ => record.enqueuedAt) [stored]
    return (.inserted stored, ⟨store, queue⟩)

def enqueueQueueRequest (state : QueueStore) (record : NewQueueRecord) (maxDepth : Fin u16Size) :
    Except StorageError (QueueEnqueueOutcome × QueueStore) := do
  let existing ← loadIdempotentQueueRecord state.queue record.principalRef record.operation
    record.idempotencyKey
  match existing with
  | some (id, requestDigest, payloadSha256) =>
    ensure (requestDigest = record.requestDigest ∧ payloadSha256 = record.payloadSha256)
      .idempotencyConflict
    let found ← loadQueueRecord state.queue record.principalRef id
    let stored ← orFail .invalidStoredState found
    return (.replayed stored, state)
  | none => enqueueNew state record maxDepth

/-- The selected requests with the positions they have. -/
def oldPositions (queue : QueueTable) (selected : QueueRow → Bool) :
    Except StorageError (List (QueueRequestId × Nat)) :=
  (queue.rows.filter (·.waits selected)).mapM fun row => do
    let id ← selectedId row
    let record ← requireQueueRecord queue id
    let position ← orFail .invalidStoredState record.status.position
    return (id, position)

/-- The records of a withdrawal, with the positions the requests had. -/
def withdrawnRecords (queue : QueueTable) (old : List (QueueRequestId × Nat)) :
    Except StorageError (List (StoredQueueRecord × Nat)) :=
  old.mapM fun (id, position) => do
    let record ← requireQueueRecord queue id
    return (record, position)

def hasQueueExpired (cutoff : String) (row : QueueRow) : Bool :=
  Rfc3339.trimZ row.expiresAt ≤ Rfc3339.trimZ cutoff

def expireQueueRequests (state : QueueStore) (observedAt : OffsetDateTime) :
    Except StorageError (List (StoredQueueRecord × Nat) × QueueStore) := do
  let cutoff ← formatTime rfc3339 observedAt
  let old ← oldPositions state.queue (hasQueueExpired cutoff)
  let queue ← updateQueued state.queue (hasQueueExpired cutoff)
    (fun row => { row with status := "expired" }) (fun _ => rfl)
  let expired ← withdrawnRecords queue old
  let store ← logQueue state.store .turnQueueExpired .info (fun _ => observedAt)
    (expired.map (·.1))
  return (expired, ⟨store, queue⟩)

/-- Adds one to the revision of a request and reads it back. -/
def advanceRecord (queue : QueueTable) (row : QueueRow) :
    Except StorageError (StoredQueueRecord × QueueTable) := do
  let queueRequestId ← selectedId row
  let queue ← updateQueued queue (fun other => other.queueRequestId = queueRequestId.text) id
    (fun _ => rfl)
  let record ← requireQueueRecord queue queueRequestId
  return (record, queue)

def advanceRecords (queue : QueueTable) :
    List QueueRow → Except StorageError (List StoredQueueRecord × QueueTable)
  | [] => .ok ([], queue)
  | row :: rest => do
    let (record, queue) ← advanceRecord queue row
    let (records, queue) ← advanceRecords queue rest
    return (record :: records, queue)

def advanceQueuePositions (state : QueueStore) (leaseKey : String) (firstChangedPosition : Nat)
    (clock : QueueRequestId → OffsetDateTime) :
    Except StorageError (List StoredQueueRecord × QueueStore) := do
  let (records, queue) ← advanceRecords state.queue
    ((fifoOf state.queue leaseKey).drop (firstChangedPosition - 1))
  let store ← logQueue state.store .queuePositionChanged .info clock records
  return (records, ⟨store, queue⟩)

def cancelQueueRequest (state : QueueStore) (principalRef : String)
    (queueRequestId : QueueRequestId) (now : OffsetDateTime) :
    Except StorageError (Option QueueCancellation × QueueStore) := do
  let found ← loadQueueRecord state.queue principalRef queueRequestId
  match found with
  | none => return (none, state)
  | some before =>
    if before.status.status = .queued then do
      let position ← orFail .invalidStoredState before.status.position
      let queue ← updateQueued state.queue (fun row => row.queueRequestId = queueRequestId.text)
        (fun row => { row with status := "cancelled" }) (fun _ => rfl)
      let found ← loadQueueRecord queue principalRef queueRequestId
      let after ← orFail .invalidStoredState found
      let store ← logQueue state.store .turnQueueCancelled .info (fun _ => now)
        (if after.status.status = .cancelled then [after] else [])
      return (some ⟨after, some position⟩, ⟨store, queue⟩)
    else return (some ⟨before, none⟩, state)

inductive QueueTerminalUpdate where
  | admitted (sessionId : SessionId) (turnId : TurnId)
  | validationFailed (failure : QueueFailure)

namespace QueueTerminalUpdate

def status : QueueTerminalUpdate → QueueRequestStatus
  | .admitted _ _ => .admitted
  | .validationFailed _ => .validationFailed

def event : QueueTerminalUpdate → LogEvent
  | .admitted _ _ => .turnDequeued
  | .validationFailed _ => .turnQueueValidationFailed

def severity : QueueTerminalUpdate → LogSeverity
  | .admitted _ _ => .info
  | .validationFailed _ => .warning

def change (update : QueueTerminalUpdate) (row : QueueRow) : QueueRow :=
  match update with
  | .admitted sessionId turnId => { row with
      status := "admitted"
      sessionId := (some sessionId.text).or row.sessionId
      turnId := some turnId.text
      failureCode := none
      failureMessage := none }
  | .validationFailed failure => { row with
      status := "validation_failed"
      turnId := none
      failureCode := some failure.code
      failureMessage := some failure.message }

theorem change_queueRequestId (update : QueueTerminalUpdate) (row : QueueRow) :
    (update.change row).queueRequestId = row.queueRequestId := by
  cases update <;> rfl

end QueueTerminalUpdate

def updateTerminal (state : QueueStore) (queueRequestId : QueueRequestId)
    (update : QueueTerminalUpdate) (now : OffsetDateTime) :
    Except StorageError (Bool × QueueStore) := do
  let queue ← updateQueued state.queue (fun row => row.queueRequestId = queueRequestId.text)
    update.change update.change_queueRequestId
  if (state.queue.lookup queueRequestId.text).any (·.isQueued) then do
    let record ← requireQueueRecord queue queueRequestId
    let store ← logQueue state.store update.event update.severity (fun _ => now) [record]
    return (true, ⟨store, queue⟩)
  else return (false, ⟨state.store, queue⟩)

def admitQueueRequest (state : QueueStore) (queueRequestId : QueueRequestId)
    (sessionId : SessionId) (turnId : TurnId) (now : OffsetDateTime) :
    Except StorageError (Bool × QueueStore) :=
  updateTerminal state queueRequestId (.admitted sessionId turnId) now

def failQueueRequest (state : QueueStore) (queueRequestId : QueueRequestId)
    (failure : QueueFailure) (now : OffsetDateTime) : Except StorageError (Bool × QueueStore) :=
  updateTerminal state queueRequestId (.validationFailed failure) now

def failQueueRequestsForCredential (state : QueueStore) (tokenId : String)
    (credentialRevision : Nat) (failure : QueueFailure)
    (clock : QueueRequestId → OffsetDateTime) :
    Except StorageError (List (StoredQueueRecord × Nat) × QueueStore) := do
  ensure (credentialRevision < 2 ^ 63) .invalidStoredState
  let selected (row : QueueRow) : Bool :=
    row.tokenId = tokenId && row.credentialRevision = credentialRevision
  let old ← oldPositions state.queue selected
  let queue ← updateQueued state.queue selected (fun row => { row with
    status := "validation_failed"
    failureCode := some failure.code
    failureMessage := some failure.message }) (fun _ => rfl)
  let records ← withdrawnRecords queue old
  let store ← logQueue state.store .turnQueueValidationFailed .warning clock (records.map (·.1))
  return (records, ⟨store, queue⟩)

/-! ## The queue as a state machine -/

inductive QueueCall where
  | enqueue (record : NewQueueRecord) (maxDepth : Fin u16Size)
  | expire (observedAt : OffsetDateTime)
  | cancel (principalRef : String) (queueRequestId : QueueRequestId) (now : OffsetDateTime)
  | admitted (queueRequestId : QueueRequestId) (sessionId : SessionId) (turnId : TurnId)
      (now : OffsetDateTime)
  | failed (queueRequestId : QueueRequestId) (failure : QueueFailure) (now : OffsetDateTime)
  | credentialFailed (tokenId : String) (credentialRevision : Nat) (failure : QueueFailure)
      (clock : QueueRequestId → OffsetDateTime)
  | advance (leaseKey : String) (firstChangedPosition : Nat)
      (clock : QueueRequestId → OffsetDateTime)

inductive QueueReply where
  | enqueued (outcome : QueueEnqueueOutcome)
  | withdrawn (records : List (StoredQueueRecord × Nat))
  | cancelled (cancellation : Option QueueCancellation)
  | updated (changed : Bool)
  | advanced (records : List StoredQueueRecord)

/-- A transaction commits the queue and its log entries, or rolls back both. -/
def serveQueue (state : QueueStore) : QueueCall → Except StorageError QueueReply × QueueStore
  | .enqueue record maxDepth =>
    transact state .enqueued (enqueueQueueRequest state record maxDepth)
  | .expire observedAt => transact state .withdrawn (expireQueueRequests state observedAt)
  | .cancel principalRef queueRequestId now =>
    transact state .cancelled (cancelQueueRequest state principalRef queueRequestId now)
  | .admitted queueRequestId sessionId turnId now =>
    transact state .updated (admitQueueRequest state queueRequestId sessionId turnId now)
  | .failed queueRequestId failure now =>
    transact state .updated (failQueueRequest state queueRequestId failure now)
  | .credentialFailed tokenId credentialRevision failure clock =>
    transact state .withdrawn
      (failQueueRequestsForCredential state tokenId credentialRevision failure clock)
  | .advance leaseKey firstChangedPosition clock =>
    transact state .advanced
      (advanceQueuePositions state leaseKey firstChangedPosition clock)

end Satelle.Host
