import Satelle.Core.PublicSession

/-! The token through which a running admission is cancelled
(`AdmissionCancellation` of `host/runtime-request.rs`). Whoever holds a clone may
ask for the cancellation; the commit gate keeps that from happening while the
admission commits. -/
namespace Satelle.Host
open Satelle.Core

/-- The codes of the errors that the modelled functions make; `other` stands for
the codes of the errors that only pass through. -/
inductive ErrorCode where
  | idempotencyKeyConflict | storageIntegrityFailed | stateConflict | capacityExceeded | interrupted
  | other (name : String)
  deriving DecidableEq, Repr

structure SatelleError where
  code : ErrorCode
  message : String
  deriving DecidableEq, Repr

namespace SatelleError

def integrityError (message : String) : SatelleError := ⟨.storageIntegrityFailed, message⟩

def idempotencyConflict : SatelleError :=
  ⟨.idempotencyKeyConflict, "the idempotency key was already used for a different request"⟩

def stateConflict : SatelleError :=
  ⟨.stateConflict, "the Host state changed before the operation could commit"⟩

def capacityExceeded (resource : String) (limit : Nat) : SatelleError :=
  ⟨.capacityExceeded,
    "the " ++ resource ++ " capacity limit of " ++ toString limit ++ " is currently occupied"⟩

def interruptedAttachedCommand : SatelleError :=
  ⟨.interrupted, "attached command was interrupted after applying the interruption contract"⟩

end SatelleError

/-- `Open` of the source is `opened` here: the word is taken in Lean. -/
inductive AdmissionCancellationState where
  | opened | requested | cancelled | recoveryPending
  | admitted (sessionId : SessionId) (turnId : TurnId)
  deriving DecidableEq

/-- How an admission that was asked to stop ended. -/
inductive CancellationFinish where
  | cancelled | recoveryPending
  deriving DecidableEq

/-- The state behind the clones of one token, and whether its commit gate is
held. -/
structure AdmissionCancellation where
  committing : Bool
  state : AdmissionCancellationState
  deriving DecidableEq

namespace AdmissionCancellation

def new : AdmissionCancellation := ⟨false, .opened⟩

def isRequested (token : AdmissionCancellation) : Bool :=
  match token.state with
  | .requested | .cancelled | .recoveryPending => true
  | .opened | .admitted _ _ => false

/-- Waits for the commit gate. -/
def requestState (token : AdmissionCancellation) : Option AdmissionCancellation :=
  if token.committing then none
  else if token.state = .opened then some { token with state := .requested }
  else some token

def finish (token : AdmissionCancellation) (outcome : CancellationFinish) :
    AdmissionCancellation :=
  match token.state with
  | .admitted _ _ => token
  | .opened | .requested | .cancelled | .recoveryPending =>
    match outcome with
    | .cancelled => { token with state := .cancelled }
    | .recoveryPending => { token with state := .recoveryPending }

/-- The way into `with_commit_gate`: an admission that was asked to stop is not
let through. -/
def enterCommitGate (token : AdmissionCancellation) : Option (AdmissionCancellation × Bool) :=
  if token.committing then none
  else if token.isRequested then some (token.finish .cancelled, false)
  else some ({ token with committing := true }, true)

/-- The way out of `with_commit_gate` when the operation inside has committed. -/
def committed (sessionId : SessionId) (turnId : TurnId) : AdmissionCancellation :=
  ⟨false, .admitted sessionId turnId⟩

/-- The way out when it has failed. -/
def leaveCommitGate (token : AdmissionCancellation) : AdmissionCancellation :=
  { token with committing := false }

end AdmissionCancellation

end Satelle.Host
