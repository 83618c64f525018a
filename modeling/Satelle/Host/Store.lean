import Satelle.SessionLifecycle
import Satelle.Host.Stop
import Satelle.Host.Retention

/-! The store as a state machine. A call is one serialized transaction with its
arguments and the clock readings it makes; it replies and leaves the store it
committed, or fails and leaves the store as it was. -/
namespace Satelle.Host
open Satelle.Core Lib

inductive StoreCall where
  /-- The fields of a Session are private, so a caller can only hand over a
  Session the aggregate has made. -/
  | beginSession (session : Session) (made : SessionLifecycle.Reachable session)
      (context : AdmissionContext) (now : OffsetDateTime)
  | beginFollowUp (sessionId : SessionId) (expected : SessionStateRevision) (turnId : TurnId)
      (executionPolicy : ExecutionPolicy) (time : OffsetDateTime) (requiresUpstreamThread : Bool)
      (context : AdmissionContext) (now : OffsetDateTime)
  | commitLifecycle (sessionId : SessionId) (turnId : TurnId) (expected : ExpectedRevisions)
      (transition : TurnTransition) (time : OffsetDateTime)
  | recordUpstreamRef (sessionId : SessionId) (turnId : TurnId) (observed : ObservedUpstreamRef)
  | beginStop (sessionId : SessionId) (expectedTurnId : TurnId) (input : IdempotencyInput)
      (now : OffsetDateTime)
  | confirmStop (claim : StopClaim) (observation : StopObservation) (time : OffsetDateTime)
  | markRestartRecoveryPending (clock : SessionId → OffsetDateTime)
  | recordAdmissionCancellation (operation : IdempotentOperation) (input : IdempotencyInput)
      (expectedSessionId : Option SessionId) (outcome : DurableCancellationOutcome)
      (observedAt : OffsetDateTime)
  | reconcileAdmissionCancellation (operation : IdempotentOperation) (input : IdempotencyInput)
      (expectedSessionId : Option SessionId) (outcome : DurableCancellationOutcome)
      (observedAt : OffsetDateTime)
  | pruneExpiredSessionMetadata (observedAt : OffsetDateTime) (sessionRetention logRetention
      setupLedgerRetention : Int)
  /-- What the transactions on other tables, those of the turn queue among them,
  leave in the tables of this store. -/
  | appendSafeLog (record : SafeLogRecord)

inductive StoreReply where
  | admission (outcome : AdmissionOutcome)
  | session (session : Session)
  | done
  | stopBegan (outcome : BeginStopOutcome)
  | stopCommitted (commit : StopCommit)
  | recovered (subjects : List RecoverySubject)
  | cancellation (state : DurableAdmissionState)

def serve (codec : TimeCodec) (db : Database) :
    StoreCall → Except StorageError StoreReply × Database
  | .beginSession session _ context now =>
    transact db .admission (beginSession codec db session context now)
  | .beginFollowUp sessionId expected turnId executionPolicy time requiresUpstreamThread context
      now =>
    transact db .admission (beginFollowUp codec db sessionId expected turnId executionPolicy time
      requiresUpstreamThread context now)
  | .commitLifecycle sessionId turnId expected transition time =>
    transact db .session (commitLifecycle codec db sessionId turnId expected transition time)
  | .recordUpstreamRef sessionId turnId observed =>
    transact db (fun _ => .done) ((recordUpstreamRef db sessionId turnId observed).map (Prod.mk ()))
  | .beginStop sessionId expectedTurnId input now =>
    transact db .stopBegan (beginStop codec db sessionId expectedTurnId input now)
  | .confirmStop claim observation time =>
    transact db .stopCommitted (confirmStop codec db claim observation time)
  | .markRestartRecoveryPending clock =>
    transact db .recovered (markRestartRecoveryPending codec db clock)
  | .recordAdmissionCancellation operation input expectedSessionId outcome observedAt =>
    transact db .cancellation (recordAdmissionCancellation codec db operation input
      expectedSessionId outcome observedAt)
  | .reconcileAdmissionCancellation operation input expectedSessionId outcome observedAt =>
    transact db .cancellation (reconcileAdmissionCancellation codec db operation input
      expectedSessionId outcome observedAt)
  | .pruneExpiredSessionMetadata observedAt sessionRetention logRetention setupLedgerRetention =>
    transact db (fun _ => .done) ((pruneExpiredSessionMetadataWithRetention codec db observedAt
      sessionRetention logRetention setupLedgerRetention).map (Prod.mk ()))
  | .appendSafeLog record =>
    transact db (fun _ => .done) ((insertSafeLog codec db record).map (Prod.mk ()))

/-- A store before its first Session. Probes may hold desktops, and other
operations may have left records; nothing names a Session or a Turn. -/
structure Fresh (db : Database) : Prop where
  sessions : db.sessions.rows = []
  turns : db.turns.rows = []
  leases : ∀ lease ∈ db.controlLeases.rows, lease.ownerKind ≠ "turn"
  records : ∀ record ∈ db.idempotencyRecords.rows, record.sessionId = none ∧
    record.operation ≠ "run" ∧ record.operation ≠ "steer" ∧ record.operation ≠ "stop"
  cancellations : db.admissionCancellations.rows = []

/-- A later store of a run whose calls all meet a condition. -/
def Later (codec : TimeCodec) (allowed : Database → StoreCall → Prop) :
    Database → Database → Prop :=
  Relation.ReflTransGen fun db after =>
    ∃ call, allowed db call ∧ (serve codec db call).2 = after

/-- A store some run from a fresh one arrives at. -/
def ReachableBy (codec : TimeCodec) (allowed : Database → StoreCall → Prop) (db : Database) :
    Prop :=
  ∃ start, Fresh start ∧ Later codec allowed start db

/-- Any calls, in any order, with any arguments. -/
def ReachableStore (codec : TimeCodec) (db : Database) : Prop :=
  ReachableBy codec (fun _ _ => True) db

end Satelle.Host
