import Satelle.StoreChanges
import Satelle.Host.Store

/-! What a committed call is meant to do, on the level of Sessions: the
operation of the aggregate it performs, and the stops it may complete. -/
namespace Satelle.StoreEffects
open Satelle.Core Host StoreChanges

/-- What a restart makes of a Session. -/
def restarted (now : OffsetDateTime) (session : Session) : Session :=
  match activeTurn session.activity with
  | none => session
  | some (_, revision) =>
    (session.markActiveRecoveryPending ⟨session.revision, revision⟩ (max now session.updatedAt)).2

/-- A committed call, on the Sessions the store holds: each call performs one
operation of the aggregate on one Session, or, when it is a replay, none. -/
inductive Performs (codec : TimeCodec) (db : Database) (held : Sessions) :
    StoreCall → StoreReply → Sessions → Prop where
  | sessionReplayed (recorded : matchingIdempotency db context.idempotency = .ok (some record))
      (replayed : replayAdmission codec db record none = .ok replay) :
      Performs codec db held (.beginSession session made context now) (.admission replay.outcome)
        held
  | sessionStarted (unrecorded : matchingIdempotency db context.idempotency = .ok none)
      (free : held session.id = none)
      (started : Session.startWithDisplayName session.id session.displayName session.hostIdentity
        session.desktopBinding turnId policy time = .ok session) :
      Performs codec db held (.beginSession session made context now)
        (.admission (.execute session subject)) (Function.update held session.id (some session))
  | followUpReplayed (recorded : matchingIdempotency db context.idempotency = .ok (some record))
      (replayed : replayAdmission codec db record (some sessionId) = .ok replay) :
      Performs codec db held
        (.beginFollowUp sessionId expected turnId policy time requiresThread context now)
        (.admission replay.outcome) held
  | followUpStarted (unrecorded : matchingIdempotency db context.idempotency = .ok none)
      (known : held sessionId = some before)
      (ran : before.startFollowUp expected turnId policy time = (.ok commit, after)) :
      Performs codec db held
        (.beginFollowUp sessionId expected turnId policy time requiresThread context now)
        (.admission (.execute after subject)) (Function.update held sessionId (some after))
  | committed (known : held sessionId = some before)
      (ran : before.transitionTurn turnId expected transition time = (.ok commit, after)) :
      Performs codec db held (.commitLifecycle sessionId turnId expected transition time)
        (.session after) (Function.update held sessionId (some after))
  | referenced :
      Performs codec db held (.recordUpstreamRef sessionId turnId observed) .done held
  | stopBegan :
      Performs codec db held (.beginStop sessionId expectedTurnId input now) (.stopBegan outcome)
        held
  | stopReplayed (recorded : matchingIdempotency db claim.idempotency = .ok (some record))
      (ended : record.status = "terminal") :
      Performs codec db held (.confirmStop claim observation time) (.stopCommitted commit) held
  | stopSettled (recorded : matchingIdempotency db claim.idempotency = .ok (some record))
      (pending : record.status ≠ "terminal")
      (known : held claim.recoverySubject.sessionId = some before)
      (ran : before.stopTurn claim.recoverySubject.turnId claim.recoverySubject.expectedRevisions
        observation time = (.ok outcome, after)) (returned : commit.session = after) :
      Performs codec db held (.confirmStop claim observation time) (.stopCommitted commit)
        (Function.update held claim.recoverySubject.sessionId (some after))
  | restarted (succeeded : ∀ sessionId session turnId revision, held sessionId = some session →
        activeTurn session.activity = some (turnId, revision) →
        ∃ mutation, (session.markActiveRecoveryPending ⟨session.revision, revision⟩
          (max (clock sessionId) session.updatedAt)).1 = .ok mutation) :
      Performs codec db held (.markRestartRecoveryPending clock) (.recovered subjects)
        (fun sessionId => (held sessionId).map (restarted (clock sessionId)))
  | cancelled : Performs codec db held
      (.recordAdmissionCancellation operation input expectedSessionId outcome observedAt)
      (.cancellation state) held
  | reconciled : Performs codec db held
      (.reconcileAdmissionCancellation operation input expectedSessionId outcome observedAt)
      (.cancellation state) held
  | pruned (fewer : ∀ sessionId, remaining sessionId = held sessionId ∨
        remaining sessionId = none) :
      Performs codec db held
        (.pruneExpiredSessionMetadata observedAt sessionRetention logRetention setupLedgerRetention)
        .done remaining
  | logged : Performs codec db held (.appendSafeLog record) .done held

/-- The id of the latest Turn. -/
def lastTurnId (session : Session) : Option TurnId := session.turns.getLast?.map (·.id)

/-- The Session and Turn of the stop a request may complete: those of its open
record, or the latest Turn when the request opens one. The transaction itself
adds no Turn. -/
def completes (codec : TimeCodec) (db : Database) (input : IdempotencyInput) (session : Session)
    (turnId : TurnId) : Prop :=
  match db.idempotencyRecords.lookup input.recordKey with
  | some record => record.matches input = true ∧ record.status ≠ "terminal" ∧
      record.sessionId = some session.id.text ∧ record.turnId = some turnId.text ∧
      ∃ before, loadSession codec db session.id = .ok (some before) ∧
        lastTurnId before = lastTurnId session
  | none => lastTurnId session = some turnId

/-- What a request for a stop may do. -/
def stopping (codec : TimeCodec) (db : Database) (input : IdempotencyInput) : Permit where
  closes := completes codec db input
  records := (· = input)
  cancels := fun _ => False
  retires := False

/-- What a request for an admission may do. -/
def admitting (input : IdempotencyInput) : Permit where
  closes := fun _ _ => False
  records := (· = input)
  cancels := fun _ => False
  retires := False

/-- What a request to cancel an admission may do. -/
def cancelling (input : IdempotencyInput) : Permit where
  closes := fun _ _ => False
  records := fun _ => False
  cancels := (· = input)
  retires := False

/-- What retention may do. -/
def retiring : Permit where
  closes := fun _ _ => False
  records := fun _ => False
  cancels := fun _ => False
  retires := True

/-- What a call without a request may do. -/
def progressing : Permit where
  closes := fun _ _ => False
  records := fun _ => False
  cancels := fun _ => False
  retires := False

/-- What a call may do. -/
def permitted (codec : TimeCodec) (db : Database) : StoreCall → Permit
  | .beginSession _ _ context _ => admitting context.idempotency
  | .beginFollowUp _ _ _ _ _ _ context _ => admitting context.idempotency
  | .beginStop _ _ input _ => stopping codec db input
  | .confirmStop claim _ _ => stopping codec db claim.idempotency
  | .recordAdmissionCancellation _ input _ _ _ => cancelling input
  | .reconcileAdmissionCancellation _ input _ _ _ => cancelling input
  | .pruneExpiredSessionMetadata _ _ _ _ => retiring
  | .commitLifecycle _ _ _ _ _ => progressing
  | .recordUpstreamRef _ _ _ => progressing
  | .markRestartRecoveryPending _ => progressing
  | .appendSafeLog _ => progressing

end Satelle.StoreEffects
