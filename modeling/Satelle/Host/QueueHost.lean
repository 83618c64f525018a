import Satelle.Host.DurableAdmission
import Satelle.Host.TurnQueue

/-! The turn queue at work: the requests of the service (`host/turn_queue.rs`), the
worker that admits what waits (`drain_turn_queue`), and the transactions of
`host/runtime.rs` that follow a removal. Each lock of the store is one step. What
the checks of the worker, the adapter and the clock decide is left open, and the
files of the payloads may change under it at any time. -/
namespace Satelle.Host
open Satelle.Core

/-! ## Payloads -/

structure QueuedPrincipal where
  tokenId : String
  principalRef : String
  credentialRevision : Nat
  deriving DecidableEq

/-- What a request is admitted with again. The prompt and the settings of the Turn
only pass through. -/
structure QueuedTurnPayload where
  operation : TurnQueueOperation
  explicitQueue : Bool
  sessionId : Option SessionId
  desktopBinding : DesktopBindingRef
  principal : QueuedPrincipal
  idempotencyKey : String
  deriving DecidableEq

/-- The digest of the encoded payload. -/
abbrev PayloadDigest := QueuedTurnPayload → String

/-- The files of the private directory. -/
abbrev PayloadFiles := String → Option QueuedTurnPayload

def queueStorageError (action : String) : SatelleError :=
  .integrityError ("the Host could not " ++ action)

def payloadFileName (queueRequestId : QueueRequestId) : String := queueRequestId.text ++ ".json"

/-- `QueuePayloadStore::write`, with a new file. -/
def writePayload (files : PayloadFiles) (queueRequestId : QueueRequestId)
    (payload : QueuedTurnPayload) : PayloadFiles :=
  fun file => if file = payloadFileName queueRequestId then some payload else files file

/-- `QueuePayloadStore::read`. -/
def readPayload (sha256 : PayloadDigest) (files : PayloadFiles) (record : StoredQueueRecord) :
    Except SatelleError QueuedTurnPayload :=
  match files record.payloadFile with
  | none => .error (queueStorageError "read the private queue payload")
  | some payload =>
    if sha256 payload = record.payloadSha256 then .ok payload
    else .error (queueStorageError "verify the private queue payload")

def queueRecordMatchesPayload (record : StoredQueueRecord) (payload : QueuedTurnPayload) : Bool :=
  record.operation = payload.operation && record.status.sessionId = payload.sessionId

/-- A millisecond, in nanoseconds. -/
def millisecond : Int := 1000000

/-- The bound of a valid policy, as a 16-bit number. -/
def queueDepth (config : QueueConfig) (valid : config.validate = .ok ()) : Fin u16Size :=
  ⟨config.maxDepth, lt_of_le_of_lt (QueueConfig.bounds_of_validate valid).1.2 (by decide)⟩

/-- The record `enqueue_turn` asks the store to insert. -/
def QueuedTurnPayload.newRecord (sha256 : PayloadDigest) (payload : QueuedTurnPayload)
    (queueRequestId : QueueRequestId) (leaseKey : String) (now : OffsetDateTime) (ttlMs : Nat) :
    NewQueueRecord where
  queueRequestId := queueRequestId
  leaseKey := leaseKey
  desktopBinding := payload.desktopBinding
  tokenId := payload.principal.tokenId
  credentialRevision := payload.principal.credentialRevision
  principalRef := payload.principal.principalRef
  operation := payload.operation
  idempotencyKey := payload.idempotencyKey
  requestDigest := sha256 payload
  payloadFile := payloadFileName queueRequestId
  payloadSha256 := sha256 payload
  enqueuedAt := now
  expiresAt := now + ttlMs * millisecond
  sessionId := payload.sessionId

/-! ## Positions that have changed -/

/-- The smallest position known for a desktop, in a map ordered by desktop. -/
def noteChange (leaseKey : String) (position : Nat) : List (String × Nat) → List (String × Nat)
  | [] => [(leaseKey, position)]
  | (key, first) :: rest =>
    if leaseKey = key then (key, min first position) :: rest
    else if leaseKey < key then (leaseKey, position) :: (key, first) :: rest
    else (key, first) :: noteChange leaseKey position rest

/-- The first position that a withdrawal has changed, for each desktop. -/
def changedPositions (records : List (StoredQueueRecord × Nat)) : List (String × Nat) :=
  records.foldl (fun changed (record, position) => noteChange record.leaseKey position changed) []

/-- The desktops and positions from which on the requests have moved up. -/
def movedUp : QueueReply → List (String × Nat)
  | .withdrawn records => changedPositions records
  | .cancelled (some ⟨record, some position⟩) => [(record.leaseKey, position)]
  | .cancelled (some ⟨_, none⟩) | .cancelled none => []
  | .enqueued _ | .updated _ | .advanced _ => []

/-- The same after the worker has finished a request. -/
def StoredQueueRecord.movedUp (record : StoredQueueRecord) : List (String × Nat) :=
  [(record.leaseKey, record.status.position.getD 1)]

/-! ## The worker -/

def ErrorCode.asStr : ErrorCode → String
  | .idempotencyKeyConflict => "idempotency-key-conflict"
  | .storageIntegrityFailed => "storage-integrity-failed"
  | .stateConflict => "state-conflict"
  | .capacityExceeded => "capacity-exceeded"
  | .interrupted => "interrupted"
  | .other name => name

def queueFailure (error : SatelleError) : QueueFailure where
  code := error.code.asStr
  message := error.message

/-- `into_session`. -/
def OperationOutcome.intoSession : OperationOutcome Reply → Except SatelleError PublicSession
  | .admission session _ => .ok session
  | .stop _ | .apiToken _ | .providerBindingAuthorization _ | .providerSecretProvisioning _
  | .storageMigration _ =>
    .error (.integrityError "the operation-capacity result had the wrong response type")

/-- What a call to execute has returned. -/
def ExecutePc.returnedResult : ExecutePc Reply → Option (SharedResult Reply)
  | .returned result | .joined _ result | .retired _ (some result) => some result
  | _ => none

inductive WorkerPc where
  | idle
  /-- In `next_queued_turn`. -/
  | choosing (next : Option StoredQueueRecord)
  | reading (record : StoredQueueRecord)
  | checking (record : StoredQueueRecord) (payload : QueuedTurnPayload)
  /-- In `admit_run` or `admit_steer`, which have called the slot. -/
  | admitting (record : StoredQueueRecord) (id : ThreadId)
  /-- About to update the request. -/
  | finishing (record : StoredQueueRecord) (update : QueueTerminalUpdate)

inductive WorkerStep where
  | start
  /-- Another desktop of the loop. -/
  | look (desktopBinding : String)
  /-- The loop is over. -/
  | take
  | read
  /-- A check has failed. -/
  | reject (error : SatelleError)
  | call (id : ThreadId) (token : TokenId) (request : OperationRequest)
  /-- The admission has failed before it called the slot. -/
  | refuse (error : SatelleError)
  /-- The call has returned. -/
  | receive
  | finish (now : OffsetDateTime)
  /-- The worker is told to shut down, or cannot read its policy or its queue. -/
  | stop

/-- The worker continues with what the admission returned. -/
def WorkerPc.received (record : StoredQueueRecord) :
    Except SatelleError PublicSession → Option WorkerPc
  | .ok session => session.turns.getLast?.map fun turn =>
      .finishing record (.admitted session.sessionId turn.turnId)
  | .error error =>
    some (if error.code = .capacityExceeded then .idle
      else .finishing record (.validationFailed (queueFailure error)))

/-- The request that the worker has read. -/
def WorkerPc.held : WorkerPc → Option StoredQueueRecord
  | .idle => none
  | .choosing next => next
  | .reading record | .checking record _ | .admitting record _ | .finishing record _ => some record

def QueueTerminalUpdate.call (update : QueueTerminalUpdate) (queueRequestId : QueueRequestId)
    (now : OffsetDateTime) : QueueCall :=
  match update with
  | .admitted sessionId turnId => .admitted queueRequestId sessionId turnId now
  | .validationFailed failure => .failed queueRequestId failure now

/-- The request under which a payload is admitted, with whatever digest it has. -/
def QueuedTurnPayload.asks (payload : QueuedTurnPayload) (request : OperationRequest) : Bool :=
  request.principalRef = payload.principal.principalRef &&
    idempotentOperationToken request.operation = payload.operation.asStr &&
    request.idempotencyKey = payload.idempotencyKey

/-! ## The Host -/

/-- The admissions, the queue, its files and its worker. `owed` are the desktops
whose later requests have moved up without having been told. -/
structure QueueHost (Reply : Type) where
  admissions : AdmissionHost Reply
  queue : QueueTable
  files : PayloadFiles
  worker : WorkerPc
  owed : List (String × Nat)

inductive QueueAction (Reply : Type) where
  /-- A step of an admission, or any other use of the store. -/
  | admissions (action : HostAction Reply)
  | enqueue (payload : QueuedTurnPayload) (queueRequestId : QueueRequestId) (now : OffsetDateTime)
      (config : QueueConfig)
  | expire (observedAt : OffsetDateTime)
  | cancel (principalRef : String) (queueRequestId : QueueRequestId) (now : OffsetDateTime)
  | credentialFailed (tokenId : String) (credentialRevision : Nat) (failure : QueueFailure)
      (clock : QueueRequestId → OffsetDateTime)
  /-- `publish_queue_position_changes`. -/
  | announce (leaseKey : String) (position : Nat) (clock : QueueRequestId → OffsetDateTime)
  /-- Files come and go. -/
  | files (files : PayloadFiles)
  | worker (step : WorkerStep)
  /-- The daemon has crashed and starts again. -/
  | restart

namespace QueueHost
variable {Reply : Type}

def new (store : Database) : QueueHost Reply := ⟨.new store, .empty, fun _ => none, .idle, []⟩

def state (host : QueueHost Reply) : QueueStore := ⟨host.admissions.store, host.queue⟩

/-- A transaction has left this state and owes the news of these moves. -/
def committed (host : QueueHost Reply) (state : QueueStore) (moved : List (String × Nat)) :
    QueueHost Reply :=
  { host with
    admissions := { host.admissions with store := state.store }
    queue := state.queue
    owed := host.owed ++ moved }

/-- A transaction of a service call. One that fails changes nothing. -/
def transaction (host : QueueHost Reply) (call : QueueCall) : QueueHost Reply :=
  match serveQueue host.state call with
  | (.ok reply, after) => host.committed after (movedUp reply)
  | (.error _, _) => host

/-- The file of an enqueued payload is written first and stays only if the request
was inserted. -/
def enqueueTurn (sha256 : PayloadDigest) (host : QueueHost Reply) (payload : QueuedTurnPayload)
    (queueRequestId : QueueRequestId) (now : OffsetDateTime) (config : QueueConfig)
    (valid : config.validate = .ok ()) : QueueHost Reply :=
  match queueLeaseKey host.admissions.store payload.desktopBinding.text with
  | .error _ => host
  | .ok leaseKey =>
    if (host.files (payloadFileName queueRequestId)).isSome then host
    else
      match serveQueue host.state (.enqueue
        (payload.newRecord sha256 queueRequestId leaseKey now config.ttlMs)
        (queueDepth config valid)) with
      | (.ok (.enqueued (.inserted _)), after) => { host.committed after [] with
          files := writePayload host.files queueRequestId payload }
      | (.ok _, _) | (.error _, _) => host

/-- The news of a move that is owed. One that cannot be told stays owed. -/
def announce (host : QueueHost Reply) (leaseKey : String) (position : Nat)
    (clock : QueueRequestId → OffsetDateTime) : Option (QueueHost Reply) :=
  if (leaseKey, position) ∈ host.owed then
    match serveQueue host.state (.advance leaseKey position clock) with
    | (.ok _, after) => some { host.committed after [] with
        owed := host.owed.erase (leaseKey, position) }
    | (.error _, _) => some host
  else none

/-- The worker goes on. -/
def goes (host : QueueHost Reply) (pc : WorkerPc) : QueueHost Reply := { host with worker := pc }

/-- The worker updates the request and starts over. -/
def finish (host : QueueHost Reply) (record : StoredQueueRecord) (update : QueueTerminalUpdate)
    (now : OffsetDateTime) : QueueHost Reply :=
  match serveQueue host.state (update.call record.status.queueRequestId now) with
  | (.ok _, after) => (host.committed after record.movedUp).goes .idle
  | (.error _, _) => host.goes .idle

def work (sha256 : PayloadDigest) (host : QueueHost Reply) :
    WorkerPc → WorkerStep → Option (QueueHost Reply)
  | .idle, .start => some (host.goes (.choosing none))
  | .choosing next, .look desktopBinding =>
    match considerBinding host.state next desktopBinding with
    | .ok next => some (host.goes (.choosing next))
    | .error _ => some (host.goes .idle)
  | .choosing none, .take => some (host.goes .idle)
  | .choosing (some record), .take => some (host.goes (.reading record))
  | .reading record, .read =>
    match readPayload sha256 host.files record with
    | .ok payload => some (host.goes (.checking record payload))
    | .error error => some (host.goes (.finishing record (.validationFailed (queueFailure error))))
  | .checking record _, .reject error =>
    some (host.goes (.finishing record (.validationFailed (queueFailure error))))
  | .checking record payload, .call id token request =>
    if queueRecordMatchesPayload record payload ∧ payload.asks request then
      (host.admissions.within (.call id (.execute request token .probing))).map fun admissions =>
        { host with admissions := admissions, worker := .admitting record id }
    else none
  | .checking record _, .refuse error => (WorkerPc.received record (.error error)).map host.goes
  | .admitting record id, .receive =>
    match host.admissions.system.threads id with
    | some (.execute _ _ pc) => pc.returnedResult.bind fun result =>
        (WorkerPc.received record (result >>= OperationOutcome.intoSession)).map host.goes
    | some (.exclusive _) | some (.cancel _ _) | none => none
  | .finishing record update, .finish now => some (host.finish record update now)
  | .choosing _, .stop | .checking _ _, .stop => some (host.goes .idle)
  | _, _ => none

def perform (sha256 : PayloadDigest) (host : QueueHost Reply) :
    QueueAction Reply → Option (QueueHost Reply)
  | .admissions action => (host.admissions.perform rfc3339 action).map fun admissions =>
      { host with admissions := admissions }
  | .enqueue payload queueRequestId now config =>
    if valid : config.validate = .ok () then
      some (host.enqueueTurn sha256 payload queueRequestId now config valid)
    else none
  | .expire observedAt => some (host.transaction (.expire observedAt))
  | .cancel principalRef queueRequestId now =>
    some (host.transaction (.cancel principalRef queueRequestId now))
  | .credentialFailed tokenId credentialRevision failure clock =>
    some (host.transaction (.credentialFailed tokenId credentialRevision failure clock))
  | .announce leaseKey position clock => host.announce leaseKey position clock
  | .files files => some { host with files := files }
  | .worker step => host.work sha256 host.worker step
  | .restart => some { host with admissions := .new host.admissions.store, worker := .idle }

end QueueHost

/-- `cancel_queued_turn` answers with the record before and the record after. -/
def queueCancelResult (queueRequestId : QueueRequestId) (before after : StoredQueueRecord) :
    QueueCancelResult :=
  if before.status.status = .queued ∧ after.status.status = .cancelled then
    .cancelled queueRequestId
  else .alreadyTerminal after.status

end Satelle.Host
