import Satelle.Lib.Rfc3339
import Satelle.Core.Session

/-! The public status of a queued Turn request and the policy of the queue
(`core/queue.rs`). -/
namespace Satelle.Core
open Lib

abbrev QueueRequestId := PublicId "rq_"

/-- The number of values of `u16`. -/
def u16Size : Nat := 2 ^ 16

/-! ## Policy -/

def defaultQueueMaxDepth : Nat := 16
def maxQueueDepth : Nat := 256
def defaultQueueTtlMs : Nat := 60 * 60 * 1000
def maxQueueTtlMs : Nat := 24 * 60 * 60 * 1000

/-- A duration is kept in milliseconds. -/
structure QueueConfig where
  enabled? : Option Bool := none
  maxDepth? : Option Nat := none
  ttl? : Option Nat := none
  deriving DecidableEq, Repr

namespace QueueConfig

def validate (config : QueueConfig) : Except String Unit :=
  if config.maxDepth?.any fun depth => ¬(1 ≤ depth ∧ depth ≤ maxQueueDepth) then
    .error "queue.max_depth must be between 1 and 256"
  else if config.ttl?.any fun ttl => ttl = 0 ∨ maxQueueTtlMs < ttl then
    .error "queue.ttl must be positive and at most 24h"
  else .ok ()

def enabled (config : QueueConfig) : Bool := config.enabled?.getD false

def maxDepth (config : QueueConfig) : Nat := config.maxDepth?.getD defaultQueueMaxDepth

def ttlMs (config : QueueConfig) : Nat := config.ttl?.getD defaultQueueTtlMs

/-- A valid policy, whether it is set or not, admits a request and lets it wait
no longer than a day. -/
theorem bounds_of_validate {config : QueueConfig} (valid : config.validate = .ok ()) :
    (1 ≤ config.maxDepth ∧ config.maxDepth ≤ maxQueueDepth) ∧
      0 < config.ttlMs ∧ config.ttlMs ≤ maxQueueTtlMs := by
  obtain ⟨_, depth, ttl⟩ := config
  unfold validate at valid
  split at valid
  · cases valid
  · split at valid
    · cases valid
    · rename_i depthFits ttlFits
      constructor
      · cases depth with
        | none =>
          change 1 ≤ defaultQueueMaxDepth ∧ defaultQueueMaxDepth ≤ maxQueueDepth
          decide
        | some depth =>
          simp only [Option.any_some, decide_eq_true_eq, not_not] at depthFits
          exact depthFits
      · cases ttl with
        | none =>
          change 0 < defaultQueueTtlMs ∧ defaultQueueTtlMs ≤ maxQueueTtlMs
          decide
        | some ttl =>
          simp only [Option.any_some, decide_eq_true_eq, not_or, not_lt] at ttlFits
          exact ⟨Nat.pos_of_ne_zero ttlFits.1, ttlFits.2⟩

end QueueConfig

/-! ## Status -/

inductive QueueRequestStatus where
  | queued | admitted | cancelled | expired | validationFailed
  deriving DecidableEq, Repr

namespace QueueRequestStatus

def asStr : QueueRequestStatus → String
  | .queued => "queued"
  | .admitted => "admitted"
  | .cancelled => "cancelled"
  | .expired => "expired"
  | .validationFailed => "validation_failed"

def isTerminal (status : QueueRequestStatus) : Bool := status ≠ .queued

end QueueRequestStatus

structure QueueFailure where
  code : String
  message : String
  deriving DecidableEq, Repr

def queueStatusSchemaVersion : String := "satelle.queue.status.v1"

structure QueueStatus where
  schemaVersion : String
  queueRequestId : QueueRequestId
  status : QueueRequestStatus
  position : Option Nat
  enqueuedAt : String
  expiresAt : String
  sessionId : Option SessionId
  turnId : Option TurnId
  failure : Option QueueFailure
  stateRevision : Nat
  deriving DecidableEq

namespace QueueStatus

/-- Times are formatted again; an instant without text would be a panic. -/
def new (queueRequestId : QueueRequestId) (status : QueueRequestStatus) (position : Option Nat)
    (enqueuedAt expiresAt : OffsetDateTime) (sessionId : Option SessionId)
    (turnId : Option TurnId) (failure : Option QueueFailure) (stateRevision : Nat) :
    Option QueueStatus := do
  let enqueuedAt ← Rfc3339.format enqueuedAt
  let expiresAt ← Rfc3339.format expiresAt
  return {
    schemaVersion := queueStatusSchemaVersion
    queueRequestId := queueRequestId
    status := status
    position := position
    enqueuedAt := enqueuedAt
    expiresAt := expiresAt
    sessionId := sessionId
    turnId := turnId
    failure := failure
    stateRevision := stateRevision }

def shapeIsValid (status : QueueStatus) : Bool :=
  match status.status with
  | .queued => status.position.isSome && status.turnId.isNone && status.failure.isNone
  | .admitted => status.position.isNone && status.sessionId.isSome && status.turnId.isSome &&
      status.failure.isNone
  | .cancelled | .expired =>
    status.position.isNone && status.turnId.isNone && status.failure.isNone
  | .validationFailed => status.position.isNone && status.turnId.isNone && status.failure.isSome

def validate (status : QueueStatus) : Except String Unit :=
  if status.schemaVersion ≠ queueStatusSchemaVersion ∨ status.stateRevision = 0 then
    .error "the queue status schema or revision is invalid"
  else
    match Rfc3339.parse status.enqueuedAt, Rfc3339.parse status.expiresAt with
    | none, _ => .error "the queue enqueue time is invalid"
    | some _, none => .error "the queue expiry time is invalid"
    | some enqueuedAt, some expiresAt =>
      if expiresAt ≤ enqueuedAt then .error "the queue expiry must follow its enqueue time"
      else if status.shapeIsValid then .ok ()
      else .error "the queue status fields contradict its lifecycle state"

end QueueStatus

/-! ## Cancellation -/

inductive QueueCancelOutcome where
  | cancelled | alreadyTerminal
  deriving DecidableEq, Repr

def queueCancelSchemaVersion : String := "satelle.queue.cancel.v1"

structure QueueCancelResult where
  schemaVersion : String
  queueRequestId : QueueRequestId
  outcome : QueueCancelOutcome
  changed : Bool
  sessionId : Option SessionId
  turnId : Option TurnId
  deriving DecidableEq

namespace QueueCancelResult

def cancelled (queueRequestId : QueueRequestId) : QueueCancelResult where
  schemaVersion := queueCancelSchemaVersion
  queueRequestId := queueRequestId
  outcome := .cancelled
  changed := true
  sessionId := none
  turnId := none

def alreadyTerminal (status : QueueStatus) : QueueCancelResult where
  schemaVersion := queueCancelSchemaVersion
  queueRequestId := status.queueRequestId
  outcome := .alreadyTerminal
  changed := false
  sessionId := status.sessionId
  turnId := status.turnId

end QueueCancelResult

end Satelle.Core
