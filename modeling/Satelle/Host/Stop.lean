import Satelle.Host.Lifecycle

/-! Stopping a Turn (`host/storage/stop.rs`): a stop is claimed in one
transaction, observed outside the store and completed in another. The record of
the request carries it from the one to the other. -/
namespace Satelle.Host
open Satelle.Core
open StorageError (fail ofLifecycle)

/-- A claim is only made by `begin_stop`, from a stop request. -/
structure StopClaim where
  idempotency : IdempotencyInput
  recoverySubject : RecoverySubject
  isStop : idempotency.operation = .stop

structure StopCommit where
  session : Session
  turnId : TurnId
  outcome : StopCommitOutcome
  deriving DecidableEq

inductive BeginStopOutcome where
  | observe (claim : StopClaim)
  | complete (commit : StopCommit)

section Operations
variable (codec : TimeCodec)

def stopRecordTurnId (record : IdempotencyRow) (sessionId : SessionId) :
    Except StorageError TurnId := do
  let turnId ← orFail .invalidStoredState (record.turnId.bind PublicId.parse)
  ensureRecordHandles record sessionId turnId
  return turnId

/-- The Session a completed stop is answered with. A stop that was not
confirmed reports the current Session: its Turn may have moved on. -/
def completedStopSession (db : Database) (record : IdempotencyRow) (sessionId : SessionId)
    (turnId : TurnId) : StopCommitOutcome → Except StorageError Session
  | .notConfirmed _ _ => loadRequiredSession codec db sessionId
  | .stopped _ | .alreadyTerminal _ => do
    let sessionRevision ← orFail .invalidStoredState record.resultSessionStateRevision
    let sessionUpdatedAt ← orFail .invalidStoredState record.resultSessionUpdatedAt
    loadSessionAtOperationOutcome codec db sessionId turnId sessionRevision sessionUpdatedAt

def completedStopCommit (db : Database) (record : IdempotencyRow) (sessionId : SessionId) :
    Except StorageError StopCommit := do
  ensure (record.status = "terminal") .invalidStoredState
  let turnId ← stopRecordTurnId record sessionId
  let outcome ← parseStopOutcome record.durableOutcome
  let session ← completedStopSession codec db record sessionId turnId outcome
  return { session := session, turnId := turnId, outcome := outcome }

def replayCompletedStopIfPresent (db : Database) (sessionId : SessionId)
    (input : IdempotencyInput) : Except StorageError (Option StopCommit) := do
  requireOperation input .stop
  match ← matchingIdempotency db input with
  | none => return none
  | some record =>
    if record.status = "in_progress" ∧ record.durableOutcome = "v1.stop.pending" then return none
    else if record.status = "terminal" then
      (completedStopCommit codec db record sessionId).map some
    else fail .invalidStoredState

/-- Completes an open record for a Turn that is terminal already. -/
def completeTerminalStop (db : Database) (input : IdempotencyInput) (session : Session)
    (turnId : TurnId) (state : TerminalTurnState) (completedAt : OffsetDateTime) :
    Except StorageError (StopCommit × Database) := do
  let token ← stopOutcomeToken (.alreadyTerminal state)
  let db ← completeStopIdempotency codec db input token session completedAt
  let db ← logTurn codec db .stopConfirmed .warning session turnId completedAt
  return ({ session := session, turnId := turnId, outcome := .alreadyTerminal state }, db)

/-- `begin_stop` on a record that a previous observer left open. -/
def resumeStop (db : Database) (sessionId : SessionId) (turnId : TurnId)
    (input : IdempotencyInput) (isStop : input.operation = .stop) (now : OffsetDateTime) :
    Except StorageError (BeginStopOutcome × Database) := do
  let session ← loadRequiredSession codec db sessionId
  let turn ← orFail .invalidStoredState (session.turn turnId)
  match TerminalTurnState.tryFrom turn.state with
  | some state => do
    ensureControlLeaseAbsent db sessionId turnId
    let (commit, db) ← completeTerminalStop codec db input session turnId state
      (max now session.updatedAt)
    return (.complete commit, db)
  | none => do
    ensureControlLeasePresent db sessionId turnId
    let subject ← loadRecoverySubject codec db session turnId
    return (.observe ⟨input, subject, isStop⟩, db)

/-- `begin_stop` on a request that has no record. -/
def openStop (db : Database) (sessionId : SessionId) (expectedTurnId : TurnId)
    (input : IdempotencyInput) (isStop : input.operation = .stop) :
    Except StorageError (BeginStopOutcome × Database) := do
  let session ← loadRequiredSession codec db sessionId
  let last ← orFail .invalidStoredState session.turns.getLast?
  ensure (expectedTurnId = last.id) .stateConflict
  let turn ← orFail .stateConflict (session.turn last.id)
  match TerminalTurnState.tryFrom turn.state with
  | some state => do
    let db ← insertIdempotency codec db input "in_progress" "v1.stop.pending" sessionId last.id
    let (commit, db) ← completeTerminalStop codec db input session last.id state input.createdAt
    return (.complete commit, db)
  | none => do
    ensureControlLeasePresent db sessionId last.id
    let subject ← loadRecoverySubject codec db session last.id
    let db ← insertIdempotency codec db input "in_progress" "v1.stop.pending" sessionId last.id
    return (.observe ⟨input, subject, isStop⟩, db)

def beginStop (db : Database) (sessionId : SessionId) (expectedTurnId : TurnId)
    (input : IdempotencyInput) (now : OffsetDateTime) :
    Except StorageError (BeginStopOutcome × Database) :=
  if isStop : input.operation = .stop then do
    match ← matchingIdempotency db input with
    | some record => do
      let turnId ← stopRecordTurnId record sessionId
      if record.status = "terminal" then
        let commit ← completedStopCommit codec db record sessionId
        return (.complete commit, db)
      else if record.durableOutcome ≠ "v1.stop.pending" then fail .invalidStoredState
      else resumeStop codec db sessionId turnId input isStop now
    | none => openStop codec db sessionId expectedTurnId input isStop
  else fail .invalidInput

/-- What an aggregate outcome is stored as, and whether the Session changed. -/
def stopCommitOutcome (previous : TurnState) : StopOutcome → StopCommitOutcome × Bool
  | .stopped _ => (.stopped previous, true)
  | .alreadyTerminal state _ => (.alreadyTerminal state, false)
  | .notConfirmed ownership (.committed _) => (.notConfirmed ownership true, true)
  | .notConfirmed ownership (.unchanged _) => (.notConfirmed ownership false, false)

def persistStop (db : Database) (session : Session) (turnId : TurnId)
    (expected : ExpectedRevisions) (time : OffsetDateTime) (changed : Bool) :
    Except StorageError Database :=
  if changed then do
    let db ← persistLifecycleMutation codec db session turnId expected
    updateTurnIdempotency codec db session turnId time
  else .ok db

def settleStopLease (db : Database) (session : Session) (sessionId : SessionId) (turnId : TurnId) :
    StopCommitOutcome → Except StorageError Database
  | .alreadyTerminal _ => do
    ensureControlLeaseAbsent db sessionId turnId
    return db
  | .stopped _ | .notConfirmed _ _ => synchronizeControlLease db session turnId

def stopEvent : StopCommitOutcome → LogEvent
  | .notConfirmed _ _ => .stopNotConfirmed
  | .stopped _ | .alreadyTerminal _ => .stopConfirmed

/-- `confirm_stop` on an open record. -/
def settleStop (db : Database) (claim : StopClaim) (observation : StopObservation)
    (time : OffsetDateTime) : Except StorageError (StopCommit × Database) := do
  let sessionId := claim.recoverySubject.sessionId
  let turnId := claim.recoverySubject.turnId
  let expected := claim.recoverySubject.expectedRevisions
  let before ← loadRequiredSession codec db sessionId
  let previous ← orFail .invalidStoredState (before.turn turnId)
  let stopped := before.stopTurn turnId expected observation time
  let aggregate ← stopped.1.mapError ofLifecycle
  let session := stopped.2
  let settled := stopCommitOutcome previous.state aggregate
  let db ← persistStop codec db session turnId expected time settled.2
  let db ← settleStopLease db session sessionId turnId settled.1
  let token ← stopOutcomeToken settled.1
  let db ← completeStopIdempotency codec db claim.idempotency token session time
  let db ← logTurn codec db (stopEvent settled.1) .warning session turnId time
  return ({ session := session, turnId := turnId, outcome := settled.1 }, db)

def confirmStop (db : Database) (claim : StopClaim) (observation : StopObservation)
    (time : OffsetDateTime) : Except StorageError (StopCommit × Database) := do
  let found ← matchingIdempotency db claim.idempotency
  let record ← orFail .invalidStoredState found
  ensureRecordHandles record claim.recoverySubject.sessionId claim.recoverySubject.turnId
  if record.status = "terminal" then
    let commit ← completedStopCommit codec db record claim.recoverySubject.sessionId
    return (commit, db)
  else settleStop codec db claim observation time

end Operations

end Satelle.Host
