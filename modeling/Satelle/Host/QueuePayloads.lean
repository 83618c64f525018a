import Satelle.Core.SecureFile
import Satelle.Host.QueueHost

/-! The private directory of the queue's payloads (`QueuePayloadStore`) and the calls of
`host/runtime.rs` that keep it beside the queue. Each effect on a file, each transaction
and each part of `RuntimeEngine::open` is one step, and the daemon may crash between any
two; what was done to the store and to the files stays. JSON and SHA-256 are arguments,
and whatever else the store serves is left open. -/
namespace Satelle.Host
open Satelle.Core Lib

/-! ## Files -/

structure PayloadCodec where
  encode : QueuedTurnPayload → Option Bytes
  decode : Bytes → Option QueuedTurnPayload
  roundTrip : ∀ {payload bytes}, encode payload = some bytes → decode bytes = some payload
  sha256 : Bytes → String

def maxQueuePayloadBytes : Nat := 16 * 1024 * 1024

structure PayloadFile where
  name : String
  bytes : Bytes
  deriving DecidableEq

abbrev PayloadDirectory := Table PayloadFile (·.name)

namespace PayloadDirectory

def write (directory : PayloadDirectory) (name : String) (bytes : Bytes) : PayloadDirectory :=
  directory.updateWhere (·.name = name) (fun file => { file with bytes := bytes }) fun _ => rfl

/-- A file that is not there counts as deleted. -/
def delete (directory : PayloadDirectory) (name : String) : PayloadDirectory :=
  directory.deleteWhere (·.name = name)

end PayloadDirectory

/-- `strip_suffix`. -/
def stripSuffix (value suffix : String) : Option String :=
  (suffix.toList.isSuffixOf? value.toList).map String.ofList

/-- `validate_file_name`. -/
def validateFileName (name : String) : Except SatelleError Unit :=
  match ((stripSuffix name ".json").bind PublicId.parse : Option QueueRequestId) with
  | some _ => .ok ()
  | none => .error (queueStorageError "validate a private queue payload name")

/-- `read_queued_turn`. -/
def readQueuedTurn (codec : PayloadCodec) (directory : PayloadDirectory)
    (payloadFile payloadSha256 : String) : Except SatelleError QueuedTurnPayload := do
  validateFileName payloadFile
  match directory.lookup payloadFile with
  | none => .error (queueStorageError "read the private queue payload")
  | some file =>
    if maxQueuePayloadBytes < file.bytes.length then
      .error (queueStorageError "read the private queue payload")
    else if codec.sha256 file.bytes ≠ payloadSha256 then
      .error (queueStorageError "verify the private queue payload")
    else
      match codec.decode file.bytes with
      | some payload => .ok payload
      | none => .error (queueStorageError "decode the queued Turn")

/-! ## Calls -/

/-- The arguments of `enqueue_turn_queue`. The payload is encoded before. -/
structure QueuedTurn (codec : PayloadCodec) where
  payload : QueuedTurnPayload
  bytes : Bytes
  encoded : codec.encode payload = some bytes
  queueRequestId : QueueRequestId
  leaseKey : String
  now : OffsetDateTime
  ttlMs : Nat
  maxDepth : Fin u16Size

namespace QueuedTurn
variable {codec : PayloadCodec}

def file (turn : QueuedTurn codec) : String := payloadFileName turn.queueRequestId

def record (turn : QueuedTurn codec) : NewQueueRecord :=
  turn.payload.newRecord (fun _ => codec.sha256 turn.bytes) turn.queueRequestId turn.leaseKey
    turn.now turn.ttlMs

end QueuedTurn

/-- Where a call is. -/
inductive PayloadPc (codec : PayloadCodec) where
  /-- In `write`, with so many bytes in the new file. -/
  | writing (turn : QueuedTurn codec) (length : Nat)
  /-- The file is complete, and the transaction comes next. -/
  | written (turn : QueuedTurn codec)
  /-- The request was not inserted, and its file goes. -/
  | discarding (name : String)
  /-- The worker has read the request. -/
  | holding (record : StoredQueueRecord)
  /-- Requests do not wait any more, and their files go. -/
  | deleting (names : List String)

/-- Where the daemon is: not there, in the parts of `open`, or at work. -/
inductive DaemonMode where
  | down
  | clearing (names : List String)
  /-- In `retain_only`, with these entries of the directory to come. -/
  | pruning (retained entries : List String)
  | running
  deriving DecidableEq

structure PayloadHost (codec : PayloadCodec) where
  state : QueueStore
  files : PayloadDirectory
  mode : DaemonMode
  calls : ThreadId → Option (PayloadPc codec)

/-- What a call does first, or next. -/
inductive PayloadStep (codec : PayloadCodec) where
  | create (turn : QueuedTurn codec)
  | write (more : Nat)
  | sync
  /-- Writing has failed, and the file is removed. -/
  | failWrite
  | insert
  | discard
  /-- `expire_turn_queue`, `cancel_queued_turn`, the end of a credential or
  `publish_queue_position_changes`. -/
  | transact (call : QueueCall)
  | take (leaseKey : String)
  | finish (update : QueueTerminalUpdate) (now : OffsetDateTime)
  | delete
  /-- The call returns early. -/
  | abandon

/-- The parts of `open`. -/
inductive OpenStep where
  | expire (observedAt : OffsetDateTime)
  | delete
  /-- A deletion has failed, which `open` only notes. -/
  | skip
  | retain
  | prune

inductive PayloadAction (codec : PayloadCodec) where
  /-- Any other transaction of the store. -/
  | store (store : Database)
  | call (id : ThreadId) (step : PayloadStep codec)
  | start (step : OpenStep)
  | crash

/-- The files that a committed transaction leaves to be deleted. -/
def endedFiles : QueueReply → List String
  | .withdrawn records => records.map (·.1.payloadFile)
  | .cancelled (some ⟨record, some _⟩) => [record.payloadFile]
  | .cancelled (some ⟨_, none⟩) | .cancelled none => []
  | .enqueued _ | .updated _ | .advanced _ => []

/-- `queued_payload_files`, without the digests. -/
def queuedPayloadFiles (queue : QueueTable) : List String :=
  (queue.rows.filter (·.isQueued)).map (·.payloadFile)

/-- The calls of `transact`. -/
def isServiceCall : QueueCall → Bool
  | .expire _ | .cancel _ _ _ | .credentialFailed _ _ _ _ | .advance _ _ _ => true
  | .enqueue _ _ | .admitted _ _ _ _ | .failed _ _ _ => false

namespace PayloadHost
variable {codec : PayloadCodec}

def new (store : Database) : PayloadHost codec := ⟨⟨store, .empty⟩, .empty, .down, fun _ => none⟩

/-- The call goes on, or has returned. -/
def goes (host : PayloadHost codec) (id : ThreadId) (pc : Option (PayloadPc codec)) :
    PayloadHost codec :=
  { host with calls := fun other => if other = id then pc else host.calls other }

/-- `open_new_owner_only_file`. A payload that is too long, or whose file is there,
is refused. -/
def create (host : PayloadHost codec) (id : ThreadId) (turn : QueuedTurn codec) :
    PayloadHost codec :=
  if maxQueuePayloadBytes < turn.bytes.length then host
  else
    match host.files.insert ⟨turn.file, []⟩ with
    | some files => { host with files := files }.goes id (some (.writing turn 0))
    | none => host

/-- `enqueue_queue_request`. The file stays only if the request was inserted. -/
def insert (host : PayloadHost codec) (id : ThreadId) (turn : QueuedTurn codec) :
    PayloadHost codec :=
  match serveQueue host.state (.enqueue turn.record turn.maxDepth) with
  | (.ok (.enqueued (.inserted _)), after) => { host with state := after }.goes id none
  | (.ok _, after) => { host with state := after }.goes id (some (.discarding turn.file))
  | (.error _, _) => host.goes id (some (.discarding turn.file))

def transact (host : PayloadHost codec) (id : ThreadId) (call : QueueCall) : PayloadHost codec :=
  match serveQueue host.state call with
  | (.ok reply, after) => { host with state := after }.goes id (some (.deleting (endedFiles reply)))
  | (.error _, _) => host

def take (host : PayloadHost codec) (id : ThreadId) (leaseKey : String) : PayloadHost codec :=
  match firstQueuedRequest host.state.queue leaseKey with
  | .ok (some record) => host.goes id (some (.holding record))
  | .ok none | .error _ => host

/-- `finish_queued_turn_admitted` and `finish_queued_turn_failed`, which delete the
file also when the request no longer waited. -/
def finish (host : PayloadHost codec) (id : ThreadId) (record : StoredQueueRecord)
    (update : QueueTerminalUpdate) (now : OffsetDateTime) : PayloadHost codec :=
  match serveQueue host.state (update.call record.status.queueRequestId now) with
  | (.ok _, after) => { host with state := after }.goes id (some (.deleting [record.payloadFile]))
  | (.error _, _) => host.goes id none

def begins (host : PayloadHost codec) (id : ThreadId) : PayloadStep codec →
    Option (PayloadHost codec)
  | .create turn => some (host.create id turn)
  | .transact call => if isServiceCall call then some (host.transact id call) else none
  | .take leaseKey => some (host.take id leaseKey)
  | _ => none

def continues (host : PayloadHost codec) (id : ThreadId) :
    PayloadPc codec → PayloadStep codec → Option (PayloadHost codec)
  | .writing turn length, .write more =>
    some ({ host with files := host.files.write turn.file (turn.bytes.take (length + more)) }.goes id
      (some (.writing turn (length + more))))
  | .writing turn length, .sync =>
    if turn.bytes.length ≤ length then some (host.goes id (some (.written turn))) else none
  | .writing turn _, .failWrite =>
    some ({ host with files := host.files.delete turn.file }.goes id none)
  | .written turn, .insert => some (host.insert id turn)
  | .discarding name, .discard =>
    some ({ host with files := host.files.delete name }.goes id none)
  | .holding record, .finish update now => some (host.finish id record update now)
  | .deleting (name :: rest), .delete =>
    some ({ host with files := host.files.delete name }.goes id (some (.deleting rest)))
  | _, .abandon => some (host.goes id none)
  | _, _ => none

/-- `retain_only`, at the next entry. An entry that it refuses ends it, and `open` goes
on. -/
def prune (host : PayloadHost codec) (retained : List String) : List String → PayloadHost codec
  | [] => { host with mode := .running }
  | name :: rest =>
    match validateFileName name with
    | .error _ => { host with mode := .running }
    | .ok () =>
      if name ∈ retained then { host with mode := .pruning retained rest }
      else { host with files := host.files.delete name, mode := .pruning retained rest }

/-- `RuntimeEngine::open`, after which the calls are served. -/
def opens (host : PayloadHost codec) : DaemonMode → OpenStep → Option (PayloadHost codec)
  | .down, .expire observedAt =>
    match serveQueue host.state (.expire observedAt) with
    | (.ok reply, after) => some { host with state := after, mode := .clearing (endedFiles reply) }
    | (.error _, _) => some host
  | .clearing (name :: rest), .delete =>
    some { host with files := host.files.delete name, mode := .clearing rest }
  | .clearing (_ :: rest), .skip => some { host with mode := .clearing rest }
  | .clearing [], .retain => some { host with
      mode := .pruning (queuedPayloadFiles host.state.queue) (host.files.rows.map (·.name)) }
  | .pruning retained entries, .prune => some (host.prune retained entries)
  | _, _ => none

def perform (host : PayloadHost codec) : PayloadAction codec → Option (PayloadHost codec)
  | .store store => some { host with state := { host.state with store := store } }
  | .call id step =>
    if host.mode = .running then
      match host.calls id with
      | none => host.begins id step
      | some pc => host.continues id pc step
    else none
  | .start step => host.opens host.mode step
  | .crash => some { host with mode := .down, calls := fun _ => none }

end PayloadHost

end Satelle.Host
