import Satelle.Host.Queue

/-! The Host service of the turn queue (`host/turn_queue.rs` and the parts of
`host/runtime.rs` it calls). -/
namespace Satelle.Host
open Satelle.Core

/-! ## The next request -/

def hostIdentity (db : Database) : Except StorageError HostIdentityRef := do
  let value ← orFail .invalidStoredState db.daemonIdentity
  storedReference value

def queueLeaseKey (db : Database) (desktopBinding : String) : Except StorageError String := do
  let hostIdentity ← hostIdentity db
  return hostIdentity.text ++ ":" ++ desktopBinding

/-- The texts by which the requests of several desktops are compared. -/
def StoredQueueRecord.arrival (record : StoredQueueRecord) : String ×ₗ String :=
  toLex (record.status.enqueuedAt, record.status.queueRequestId.text)

/-- Whether a candidate takes the place of the request found so far. -/
def StoredQueueRecord.replaces (candidate : StoredQueueRecord) (next : Option StoredQueueRecord) :
    Bool :=
  next.all fun current => candidate.arrival < current.arrival

/-- One desktop of the loop in `next_queued_turn`. -/
def considerBinding (state : QueueStore) (next : Option StoredQueueRecord)
    (desktopBinding : String) : Except StorageError (Option StoredQueueRecord) := do
  let lease ← queueLeaseKey state.store desktopBinding
  let candidate ← firstQueuedRequest state.queue lease
  return match candidate with
    | none => next
    | some candidate => if candidate.replaces next then some candidate else next

/-- `next_queued_turn` over the configured desktops. -/
def nextQueuedTurn (state : QueueStore) (desktopBindings : List String) :
    Except StorageError (Option StoredQueueRecord) :=
  desktopBindings.foldlM (considerBinding state) none

end Satelle.Host
