import Satelle.Host.Store

/-! The four calls that present a request of a principal for admission: two
admit a Turn for it, two cancel its admission. Each checks its arguments, then
looks for the record of the request, and only without one does anything. -/
namespace Satelle.AdmissionRequests
open Satelle.Core Lib Host
open StorageError (fail)

/-- The request a call presents, to have it admitted or its admission
cancelled. -/
def presented : StoreCall → Option IdempotencyInput
  | .beginSession _ _ context _ => some context.idempotency
  | .beginFollowUp _ _ _ _ _ _ context _ => some context.idempotency
  | .recordAdmissionCancellation _ input _ _ _ => some input
  | .reconcileAdmissionCancellation _ input _ _ _ => some input
  | _ => none

/-- The checks a call makes on its arguments before it looks for a record. -/
def WellArgued : StoreCall → Prop
  | .beginSession session _ context _ => context.idempotency.operation = .run ∧
      context.idempotency.operationId = context.leaseOwner.operationId ∧
      validateInitialSession session = .ok ()
  | .beginFollowUp _ _ _ _ _ _ context _ => context.idempotency.operation = .steer ∧
      context.idempotency.operationId = context.leaseOwner.operationId
  | .recordAdmissionCancellation operation input _ _ _ => input.operation = operation
  | .reconcileAdmissionCancellation operation input _ _ _ => input.operation = operation
  | _ => False

/-- The Session a call expects the record to name. -/
def expectedSession : StoreCall → Option SessionId
  | .beginFollowUp sessionId _ _ _ _ _ _ _ => some sessionId
  | .recordAdmissionCancellation _ _ expected _ _ => expected
  | .reconcileAdmissionCancellation _ _ expected _ _ => expected
  | _ => none

/-- The reply a replay is returned in. -/
def replayReply (call : StoreCall) (replay : AdmissionReplay) : StoreReply :=
  match call with
  | .recordAdmissionCancellation _ _ _ _ _ => .cancellation (.admitted replay)
  | .reconcileAdmissionCancellation _ _ _ _ _ => .cancellation (.admitted replay)
  | _ => .admission replay.outcome

/-- A cancellation of a request that has no record. -/
def cancelUnrecorded (codec : TimeCodec) (db : Database) (input : IdempotencyInput)
    (outcome : DurableCancellationOutcome) (observedAt : OffsetDateTime) (reconciled : Bool) :
    Except StorageError (DurableAdmissionState × Database) := do
  let existing ← matchingAdmissionCancellation codec db input observedAt
  cancelUnadmitted codec db input outcome observedAt reconciled existing

/-- What a call does for a request that has no record. -/
def unrecorded (codec : TimeCodec) (db : Database) :
    StoreCall → Except StorageError StoreReply × Database
  | .beginSession session _ context now => transact db .admission (do
      let turn ← orFail .invalidInput session.turns.head?
      admitSession codec db session turn.id context now)
  | .beginFollowUp sessionId expected turnId policy time requiresThread context now =>
    transact db .admission
      (admitFollowUp codec db sessionId expected turnId policy time requiresThread context now)
  | .recordAdmissionCancellation _ input _ outcome observedAt =>
    transact db .cancellation (cancelUnrecorded codec db input outcome observedAt false)
  | .reconcileAdmissionCancellation _ input _ outcome observedAt =>
    transact db .cancellation (cancelUnrecorded codec db input outcome observedAt true)
  | _ => (fail .invalidInput, db)

/-- What a call does with the result of looking for the record. -/
def answered (codec : TimeCodec) (db : Database) (call : StoreCall) :
    Except StorageError (Option IdempotencyRow) → Except StorageError StoreReply × Database
  | .error e => (.error e, db)
  | .ok none => unrecorded codec db call
  | .ok (some record) =>
    transact db (replayReply call)
      ((replayAdmission codec db record (expectedSession call)).map (·, db))

private theorem ensure_not [Decidable c] (failed : ¬c) :
    ensure c kind = fail kind := if_neg failed

private theorem ensure_true [Decidable c] (passed : c) : ensure c kind = .ok () :=
  if_pos passed

private theorem validateInitialSession_cases (session : Session) :
    validateInitialSession session = .ok () ∨
      validateInitialSession session = fail .invalidInput := by
  unfold validateInitialSession
  split
  · split
    · exact .inr rfl
    · exact .inl rfl
  · exact .inr rfl

/-- An initial Session has a Turn. -/
private theorem initial_turn (valid : validateInitialSession session = .ok ()) :
    ∃ turn, session.turns.head? = some turn := by
  unfold validateInitialSession at valid
  split at valid
  · rename_i turn only
    exact ⟨turn, by rw [only]; rfl⟩
  · cases valid

private theorem transact_replay (result : Except StorageError AdmissionReplay)
    (reply : α → StoreReply) (wrap : AdmissionReplay → α) :
    transact db reply (result >>= fun replay => pure (wrap replay, db)) =
      transact db (fun replay => reply (wrap replay)) (result.map (·, db)) := by
  cases result <;> rfl

/-- A call with bad arguments is turned away before it looks for a record. -/
theorem serve_misused (presents : presented call = some input) (bad : ¬WellArgued call) :
    serve codec db call = (fail .invalidInput, db) := by
  cases call with
  | beginSession session made context now =>
    have refused : beginSession codec db session context now = fail .invalidInput := by
      unfold beginSession requireOperation
      by_cases isRun : context.idempotency.operation = .run
      · rw [ensure_true isRun]
        by_cases owned : context.idempotency.operationId = context.leaseOwner.operationId
        · rw [ensure_true owned]
          rcases validateInitialSession_cases session with valid | invalid
          · exact absurd ⟨isRun, owned, valid⟩ bad
          · rw [invalid]
            rfl
        · rw [ensure_not owned]
          rfl
      · rw [ensure_not isRun]
        rfl
    rw [serve, refused]
    rfl
  | beginFollowUp sessionId expected turnId policy time requiresThread context now =>
    have refused : beginFollowUp codec db sessionId expected turnId policy time requiresThread
        context now = fail .invalidInput := by
      unfold beginFollowUp requireOperation
      by_cases isSteer : context.idempotency.operation = .steer
      · rw [ensure_true isSteer, ensure_not fun owned => bad ⟨isSteer, owned⟩]
        rfl
      · rw [ensure_not isSteer]
        rfl
    rw [serve, refused]
    rfl
  | recordAdmissionCancellation operation input expected outcome observedAt
  | reconcileAdmissionCancellation operation input expected outcome observedAt =>
    have other : ¬input.operation = operation := bad
    simp only [serve, recordAdmissionCancellation, reconcileAdmissionCancellation,
      recordAdmissionCancellationInner, requireOperation, ensure_not other]
    rfl
  | commitLifecycle | recordUpstreamRef | beginStop | confirmStop | markRestartRecoveryPending
  | pruneExpiredSessionMetadata | appendSafeLog => cases presents

/-- A call with good arguments looks for the record of its request. -/
theorem serve_looks_up (presents : presented call = some input) (good : WellArgued call) :
    serve codec db call = answered codec db call (matchingIdempotency db input) := by
  cases call with
  | beginSession session made context now =>
    cases presents
    obtain ⟨isRun, owned, valid⟩ := good
    obtain ⟨turn, first⟩ := initial_turn valid
    rw [serve, beginSession, requireOperation, ensure_true isRun, ensure_true owned, valid, first]
    cases matchingIdempotency db context.idempotency with
    | error e => rfl
    | ok found =>
      cases found with
      | none =>
        rw [answered, unrecorded, first]
        rfl
      | some record => exact transact_replay _ _ _
  | beginFollowUp sessionId expected turnId policy time requiresThread context now =>
    cases presents
    obtain ⟨isSteer, owned⟩ := good
    rw [serve, beginFollowUp, requireOperation, ensure_true isSteer, ensure_true owned]
    cases matchingIdempotency db context.idempotency with
    | error e => rfl
    | ok found =>
      cases found with
      | none => rfl
      | some record => exact transact_replay _ _ _
  | recordAdmissionCancellation operation input expected outcome observedAt
  | reconcileAdmissionCancellation operation input expected outcome observedAt =>
    cases presents
    have same : input.operation = operation := good
    simp only [serve, recordAdmissionCancellation, reconcileAdmissionCancellation,
      recordAdmissionCancellationInner, requireOperation, ensure_true same]
    cases matchingIdempotency db input with
    | error e => rfl
    | ok found =>
      cases found with
      | none => rfl
      | some record => exact transact_replay _ _ _
  | commitLifecycle | recordUpstreamRef | beginStop | confirmStop | markRestartRecoveryPending
  | pruneExpiredSessionMetadata | appendSafeLog => cases presents

end Satelle.AdmissionRequests
