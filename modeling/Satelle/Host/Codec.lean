import Satelle.Lib.Hex
import Satelle.Host.Database

/-! How values are written to columns and read back (`host/storage/codec.rs`),
and the query that rebuilds a Session from its rows. -/
namespace Satelle.Host
open Satelle.Core Lib
open StorageError (fail withSource)

/-- RFC 3339 texts of UTC instants with nanosecond precision. An instant whose
year has no four-digit text is not formatted. -/
structure TimeCodec where
  format : OffsetDateTime → Option String
  parse : String → Option OffsetDateTime
  roundTrip : ∀ time text, format time = some text → parse text = some time

/-- The texts that the store and the public types share. -/
def rfc3339 : TimeCodec where
  format := Rfc3339.format
  parse := Rfc3339.parse
  roundTrip := Rfc3339.parse_format

/-! ## Private references -/

def maxPrivateReferenceBytes : Nat := 256

def isPrivateReference (value : String) : Bool :=
  !value.isEmpty && value.utf8ByteSize ≤ maxPrivateReferenceBytes &&
    value.toList.all isReferenceChar

/-- A text that passed `validated_private_reference`: `PrivateRequestToken`,
`PrivateUpstreamRef` and the references of a request are all of this form. -/
structure PrivateReference where
  text : String
  valid : isPrivateReference text = true
  deriving DecidableEq

def validatedPrivateReference (value : String) : Except StorageError PrivateReference :=
  if accepted : isPrivateReference value = true then .ok ⟨value, accepted⟩ else fail .invalidInput

/-! ## Columns -/

section Times
variable (codec : TimeCodec)

def formatTime (value : OffsetDateTime) : Except StorageError String :=
  orFail .invalidInput (codec.format value)

def parseTime (value : String) : Except StorageError OffsetDateTime :=
  orFail .invalidStoredState (codec.parse value)

end Times

/-- The instant as a 64-bit number of nanoseconds. -/
def unixTimestampNanos (value : OffsetDateTime) : Except StorageError Int :=
  if -2 ^ 63 ≤ value ∧ value < 2 ^ 63 then .ok value else fail .invalidInput

/-- `format_revision` and `format_turn_revision`. -/
def formatRevision (value : Revision subject) : String := String.ofList (fixedHex 16 value.value)

/-- `u64::from_str_radix(value, 16)`: a sign is allowed, and so are capitals. -/
def u64FromHex (digits : List Char) : Option (Fin u64Size) :=
  match digits with
  | [] | ['+'] => none
  | '+' :: rest => (readHex 0 rest).bind inRange
  | all => (readHex 0 all).bind inRange
where
  inRange (value : Nat) : Option (Fin u64Size) :=
    if small : value < u64Size then some ⟨value, small⟩ else none

def parseRevision (value : String) : Except StorageError (Fin u64Size) :=
  if value.utf8ByteSize ≠ 16 then fail .invalidStoredState
  else orFail .invalidStoredState (u64FromHex value.toList)

/-- `parse_session_revision` and `parse_turn_revision`. -/
def parseStateRevision (value : String) : Except StorageError (Revision subject) := do
  let number ← parseRevision value
  (Revision.new number).mapError fun _ => { kind := .invalidStoredState }

def turnStateToken : TurnState → String
  | .starting => "starting"
  | .running => "running"
  | .recoveryPending => "recovery_pending"
  | .completed => "completed"
  | .blocked => "blocked"
  | .failed => "failed"
  | .stopped => "stopped"

def parseTurnState : String → Except StorageError TurnState
  | "starting" => .ok .starting
  | "running" => .ok .running
  | "recovery_pending" => .ok .recoveryPending
  | "completed" => .ok .completed
  | "blocked" => .ok .blocked
  | "failed" => .ok .failed
  | "stopped" => .ok .stopped
  | _ => fail .invalidStoredState

def safeSummaryToken : SafeSummary → String
  | .taskCompleted => "task_completed"
  | .blockedByPolicy => "blocked_by_policy"
  | .executionFailed => "execution_failed"
  | .daemonRestartRecoveryFailed => "daemon_restart_recovery_failed"

def parseSafeSummary : String → Except StorageError SafeSummary
  | "task_completed" => .ok .taskCompleted
  | "blocked_by_policy" => .ok .blockedByPolicy
  | "execution_failed" => .ok .executionFailed
  | "daemon_restart_recovery_failed" => .ok .daemonRestartRecoveryFailed
  | _ => fail .invalidStoredState

def approvalPolicyToken : ApprovalPolicy → String
  | .untrusted => "untrusted"
  | .onFailure => "on_failure"
  | .onRequest => "on_request"
  | .never => "never"

def parseApprovalPolicy : String → Except StorageError ApprovalPolicy
  | "untrusted" => .ok .untrusted
  | "on_failure" => .ok .onFailure
  | "on_request" => .ok .onRequest
  | "never" => .ok .never
  | _ => fail .invalidStoredState

def sandboxPolicyToken : SandboxPolicy → String
  | .readOnly => "read_only"
  | .workspaceWrite => "workspace_write"
  | .dangerFullAccess => "danger_full_access"

def parseSandboxPolicy : String → Except StorageError SandboxPolicy
  | "read_only" => .ok .readOnly
  | "workspace_write" => .ok .workspaceWrite
  | "danger_full_access" => .ok .dangerFullAccess
  | _ => fail .invalidStoredState

def featureChoiceInteger : FeatureChoice → Int
  | .disabled => 0
  | .enabled => 1

def parseFeatureChoice (value : Int) : Except StorageError FeatureChoice :=
  if value = 0 then .ok .disabled else if value = 1 then .ok .enabled else fail .invalidStoredState

def parseTimeoutPolicy (value : Int) : Except StorageError TimeoutPolicy :=
  if h : 0 < value ∧ value < u32Size then
    .ok ⟨value.toNat, by omega, by omega⟩
  else fail .invalidStoredState

/-- A reference read from its column. -/
def storedReference (value : String) : Except StorageError (Reference kind) :=
  (Reference.new value).mapError fun _ => { kind := .invalidStoredState }

def turnIdempotencyToken : TurnState → String
  | .starting => "v1.turn.starting"
  | .running => "v1.turn.running"
  | .recoveryPending => "v1.turn.recovery_pending"
  | .completed => "v1.turn.completed"
  | .blocked => "v1.turn.blocked"
  | .failed => "v1.turn.failed"
  | .stopped => "v1.turn.stopped"

inductive IdempotentOperation where
  | run | steer | stop | setup | repair | hostUpdate | storageMigration | destructiveMaintenance
  | providerSecretProvisioning | providerDescriptorValidation | providerBindingAuthorization
  | providerBindingDeletion | setupVerification | nativeReadinessInvalidation | apiTokenIssue
  | apiTokenRotate | apiTokenRevoke
  deriving DecidableEq, Repr

def idempotentOperationToken : IdempotentOperation → String
  | .run => "run"
  | .steer => "steer"
  | .stop => "stop"
  | .setup => "setup"
  | .repair => "repair"
  | .hostUpdate => "host_update"
  | .storageMigration => "storage_migration"
  | .destructiveMaintenance => "destructive_maintenance"
  | .providerSecretProvisioning => "provider_secret_provisioning"
  | .providerDescriptorValidation => "provider_descriptor_validation"
  | .providerBindingAuthorization => "provider_binding_authorization"
  | .providerBindingDeletion => "provider_binding_deletion"
  | .setupVerification => "setup_verification"
  | .nativeReadinessInvalidation => "native_readiness_invalidation"
  | .apiTokenIssue => "api_token_issue"
  | .apiTokenRotate => "api_token_rotate"
  | .apiTokenRevoke => "api_token_revoke"

inductive StopCommitOutcome where
  | stopped (previous : TurnState)
  | alreadyTerminal (state : TerminalTurnState)
  | notConfirmed (ownership : RetainedOwnership) (changed : Bool)
  deriving DecidableEq, Repr

def stopOutcomeToken : StopCommitOutcome → Except StorageError String
  | .stopped .starting => .ok "v1.stop.stopped_from_starting"
  | .stopped .running => .ok "v1.stop.stopped_from_running"
  | .stopped .recoveryPending => .ok "v1.stop.stopped_from_recovery_pending"
  | .stopped .completed | .stopped .blocked | .stopped .failed | .stopped .stopped =>
    fail .invalidStoredState
  | .alreadyTerminal .completed => .ok "v1.stop.already_completed"
  | .alreadyTerminal .blocked => .ok "v1.stop.already_blocked"
  | .alreadyTerminal .failed => .ok "v1.stop.already_failed"
  | .alreadyTerminal .stopped => .ok "v1.stop.already_stopped"
  | .notConfirmed .active true => .ok "v1.stop.not_confirmed_active_changed"
  | .notConfirmed .active false => .ok "v1.stop.not_confirmed_active_unchanged"
  | .notConfirmed .recoveryPending true => .ok "v1.stop.not_confirmed_recovery_pending_changed"
  | .notConfirmed .recoveryPending false =>
    .ok "v1.stop.not_confirmed_recovery_pending_unchanged"

def parseStopOutcome : String → Except StorageError StopCommitOutcome
  | "v1.stop.stopped_from_starting" => .ok (.stopped .starting)
  | "v1.stop.stopped_from_running" => .ok (.stopped .running)
  | "v1.stop.stopped_from_recovery_pending" => .ok (.stopped .recoveryPending)
  | "v1.stop.already_completed" => .ok (.alreadyTerminal .completed)
  | "v1.stop.already_blocked" => .ok (.alreadyTerminal .blocked)
  | "v1.stop.already_failed" => .ok (.alreadyTerminal .failed)
  | "v1.stop.already_stopped" => .ok (.alreadyTerminal .stopped)
  | "v1.stop.not_confirmed_active_changed" => .ok (.notConfirmed .active true)
  | "v1.stop.not_confirmed_active_unchanged" => .ok (.notConfirmed .active false)
  | "v1.stop.not_confirmed_recovery_pending_changed" => .ok (.notConfirmed .recoveryPending true)
  | "v1.stop.not_confirmed_recovery_pending_unchanged" =>
    .ok (.notConfirmed .recoveryPending false)
  | _ => fail .invalidStoredState

/-! ## Rebuilding a Session -/

structure RawSessionRow where
  displayName : Option String
  revision : String
  hostIdentityRef : String
  desktopBindingRef : String
  createdAt : String
  updatedAt : String

structure RawTurnRow where
  turn : TurnRow
  requestToken : String
  policy : TurnPolicyRow

/-- Where a replay cuts the history: the Turn of the operation, and the
Session revision and update time stored with its outcome. -/
structure OperationBoundary where
  turnId : TurnId
  sessionRevision : String
  sessionUpdatedAt : String

namespace Database

/-- `sessions` joined with `session_private_refs`. -/
def rawSessionRow (db : Database) (sessionId : SessionId) : Option RawSessionRow := do
  let row ← db.sessions.lookup sessionId.text
  let refs ← db.sessionPrivateRefs.lookup sessionId.text
  return {
    displayName := row.displayName
    revision := row.sessionStateRevision
    hostIdentityRef := refs.hostIdentityRef
    desktopBindingRef := refs.desktopBindingRef
    createdAt := row.createdAt
    updatedAt := row.updatedAt }

/-- A Turn joined with `turn_private_refs` and `turn_policies`; the join drops
a Turn that has no row there. -/
def rawTurnRow (db : Database) (turn : TurnRow) : Option RawTurnRow := do
  let refs ← db.turnPrivateRefs.lookup turn.turnId
  let policy ← db.turnPolicies.lookup turn.turnId
  return { turn := turn, requestToken := refs.requestToken, policy := policy }

def turnRows (db : Database) (sessionId : SessionId) : List TurnRow :=
  db.turns.rows.filter (fun row => row.sessionId = sessionId.text)

/-- The comparison `ordinal <= (SELECT boundary.ordinal …)`, which fails when
there is no such Turn. -/
def withinBoundary (db : Database) (sessionId : SessionId) (boundary : Option TurnId)
    (row : TurnRow) : Bool :=
  boundary.all fun turnId =>
    ((db.turnRows sessionId).find? (fun last => last.turnId = turnId.text)).any
      (fun last => row.ordinal ≤ last.ordinal)

def rawTurnRows (db : Database) (sessionId : SessionId) (boundary : Option TurnId) :
    List RawTurnRow :=
  (((db.turnRows sessionId).filter (db.withinBoundary sessionId boundary)).insertionSort
    (fun a b => a.ordinal ≤ b.ordinal)).filterMap db.rawTurnRow

end Database

section Load
variable (codec : TimeCodec)

/-- The execution policy of a Turn, rebuilt from its row. -/
def parseExecutionPolicy (row : TurnPolicyRow) : Except StorageError ExecutionPolicy := do
  let timeoutPolicy ← parseTimeoutPolicy row.timeoutSeconds
  let effectiveModel ← storedReference row.effectiveModelRef
  let providerBinding ← storedReference row.providerBindingRef
  let binding ← storedReference row.desktopBindingRef
  let approvalPolicy ← parseApprovalPolicy row.approvalPolicy
  let sandboxPolicy ← parseSandboxPolicy row.sandboxPolicy
  let computerUse ← parseFeatureChoice row.computerUseEnabled
  let providerComputerUse ← parseFeatureChoice row.providerComputerUseEnabled
  return {
    effectiveModel := effectiveModel
    providerBinding := providerBinding
    desktopTarget := ⟨binding, row.desktopSessionId⟩
    approvalPolicy := approvalPolicy
    sandboxPolicy := sandboxPolicy
    timeoutPolicy := timeoutPolicy
    experimentalFeatures := ⟨computerUse, providerComputerUse⟩ }

def parseTurnRow (row : RawTurnRow) : Except StorageError TurnSnapshot := do
  let _ ← validatedPrivateReference row.requestToken
  let executionPolicy ← parseExecutionPolicy row.policy
  let turnId ← orFail .invalidStoredState (PublicId.parse row.turn.turnId)
  let revision ← parseStateRevision row.turn.turnStateRevision
  let state ← parseTurnState row.turn.state
  let startedAt ← parseTime codec row.turn.startedAt
  let updatedAt ← parseTime codec row.turn.updatedAt
  let terminalAt ← row.turn.terminalAt.mapM (parseTime codec)
  let safeSummary ← row.turn.safeSummary.mapM parseSafeSummary
  return {
    id := turnId
    revision := revision
    state := state
    executionPolicy := executionPolicy
    startedAt := startedAt
    updatedAt := updatedAt
    terminalAt := terminalAt
    safeSummary := safeSummary }

/-- `load_session` with its optional operation boundary. -/
def loadSessionAt (db : Database) (sessionId : SessionId) (boundary : Option OperationBoundary) :
    Except StorageError (Option Session) :=
  match db.rawSessionRow sessionId with
  | none => .ok none
  | some row => do
    let turns ← (db.rawTurnRows sessionId (boundary.map (·.turnId))).mapM (parseTurnRow codec)
    let revision ← parseStateRevision (boundary.elim row.revision (·.sessionRevision))
    let hostIdentity ← storedReference row.hostIdentityRef
    let desktopBinding ← storedReference row.desktopBindingRef
    let createdAt ← parseTime codec row.createdAt
    let updatedAt ← parseTime codec (boundary.elim row.updatedAt (·.sessionUpdatedAt))
    let session ← (Session.restore {
      id := sessionId
      displayName := row.displayName
      revision := revision
      hostIdentity := hostIdentity
      desktopBinding := desktopBinding
      createdAt := createdAt
      updatedAt := updatedAt
      turns := turns }).mapError (withSource .invalidStoredState)
    return some session

/-- `load_session_from_connection`, which is also `Storage::load_session`. -/
def loadSession (db : Database) (sessionId : SessionId) : Except StorageError (Option Session) :=
  loadSessionAt codec db sessionId none

def loadRequiredSession (db : Database) (sessionId : SessionId) : Except StorageError Session := do
  let found ← loadSession codec db sessionId
  orFail .sessionNotFound found

def loadSessionAtOperationOutcome (db : Database) (sessionId : SessionId) (turnId : TurnId)
    (sessionRevision sessionUpdatedAt : String) : Except StorageError Session := do
  let found ← loadSessionAt codec db sessionId (some ⟨turnId, sessionRevision, sessionUpdatedAt⟩)
  orFail .invalidStoredState found

end Load

end Satelle.Host
