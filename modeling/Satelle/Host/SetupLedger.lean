import Satelle.Host.TurnQueue

/-! The setup action ledger (`host/storage/setup_ledger.rs`). A setup run is a list
of actions that are worked through in order by the owner of the maintenance lease;
run, actions and lease are written by the same transactions. A capability is the
owner it was made for. -/
namespace Satelle.Host
open Satelle.Core
open StorageError (fail)

def outcomeUnknownRecoveryHint : String :=
  "inspect live postconditions before retrying this action"

def maxActionLabelBytes : Nat := 256

def maxRecoveryHintBytes : Nat := 512

inductive SetupRunStatus where
  | running | completed | failed | partialFailure | outcomeUnknown
  deriving DecidableEq, Repr

def SetupRunStatus.asStr : SetupRunStatus → String
  | .running => "running"
  | .completed => "completed"
  | .failed => "failed"
  | .partialFailure => "partial_failure"
  | .outcomeUnknown => "outcome_unknown"

def SetupRunStatus.parse : String → Except StorageError SetupRunStatus
  | "running" => .ok .running
  | "completed" => .ok .completed
  | "failed" => .ok .failed
  | "partial_failure" => .ok .partialFailure
  | "outcome_unknown" => .ok .outcomeUnknown
  | _ => fail .invalidStoredState

/-! ## Plans -/

/-- `byte == b' ' || byte.is_ascii_graphic()`. -/
def isTextChar (c : Char) : Bool := ' ' ≤ c && c ≤ '~'

/-- `normalized_text`. A text of such characters is trimmed when it neither begins
nor ends with a blank. -/
def isNormalizedText (maximumBytes : Nat) (value : String) : Bool :=
  !value.isEmpty && value.utf8ByteSize ≤ maximumBytes && value.toList.all isTextChar &&
    value.toList.head? ≠ some ' ' && value.toList.getLast? ≠ some ' '

structure NormalizedText (maximumBytes : Nat) where
  text : String
  valid : isNormalizedText maximumBytes text = true
  deriving DecidableEq

def normalizedText (maximumBytes : Nat) (value : String) :
    Except StorageError (NormalizedText maximumBytes) :=
  if accepted : isNormalizedText maximumBytes value = true then .ok ⟨value, accepted⟩
  else fail .invalidInput

structure SetupActionPlan where
  actionId : PrivateReference
  label : NormalizedText maxActionLabelBytes
  retrySafe : Bool
  deriving DecidableEq

def SetupActionPlan.tryNew (actionId label : String) (retrySafe : Bool) :
    Except StorageError SetupActionPlan := do
  let actionId ← validatedPrivateReference actionId
  let label ← normalizedText maxActionLabelBytes label
  return ⟨actionId, label, retrySafe⟩

def isHostUpdateRecoveryIdentity (targetVersion artifactDigest : String) : Bool :=
  isPrivateReference targetVersion && artifactDigest.utf8ByteSize = 64 &&
    artifactDigest.toList.all isLowerHex

/-- An identity that passed `validate_host_update_recovery_identity`. -/
structure HostUpdateRecoveryIdentity where
  targetVersion : String
  artifactDigest : String
  valid : isHostUpdateRecoveryIdentity targetVersion artifactDigest = true
  deriving DecidableEq

/-- An accepted `SetupRunPlan::new`. -/
structure SetupRunPlan where
  runId : PrivateReference
  operationKind : SetupOperationKind
  desktopBinding : Option DesktopBindingRef
  startedAt : OffsetDateTime
  actions : List SetupActionPlan
  hostUpdateRecoveryIdentity : Option HostUpdateRecoveryIdentity := none
  nonempty : actions ≠ []
  distinct : (actions.map (·.actionId.text)).Nodup

def SetupRunPlan.actionIds (plan : SetupRunPlan) : List String :=
  plan.actions.map (·.actionId.text)

def SetupRunPlan.tryNew (runId : String) (operationKind : SetupOperationKind)
    (desktopBinding : Option DesktopBindingRef) (startedAt : OffsetDateTime)
    (actions : List SetupActionPlan) : Except StorageError SetupRunPlan := do
  let runId ← validatedPrivateReference runId
  if accepted : actions ≠ [] ∧ (actions.map (·.actionId.text)).Nodup then
    return {
      runId := runId
      operationKind := operationKind
      desktopBinding := desktopBinding
      startedAt := startedAt
      actions := actions
      nonempty := accepted.1
      distinct := accepted.2 }
  else fail .invalidInput

def hostReplacementActions : List String :=
  ["install-host-artifact", "publish-host-service", "restart-host-daemon",
    "invalidate-readiness-caches", "host-update-postcheck"]

/-- `host_update_artifact_identity_required`. -/
def SetupRunPlan.requiresIdentity (plan : SetupRunPlan) : Bool :=
  (plan.operationKind = .hostUpdate && plan.actionIds ≠ ["bootstrap-handoff"]) ||
    (plan.operationKind = .repair && plan.actionIds = hostReplacementActions)

def onDemandHandoff : List String := ["bootstrap-handoff"]

/-- The lists of actions `begin_bootstrap_maintenance` takes. -/
def bootstrapShapes : List (List String) :=
  [ onDemandHandoff,
    ["bootstrap-handoff", "managed-codex", "native-computer-use"],
    ["bootstrap-handoff", "path-set-directories", "service-config", "service-registration",
      "service-start-or-restart"],
    ["bootstrap-handoff", "managed-codex", "native-computer-use", "path-set-directories",
      "service-config", "service-registration", "service-start-or-restart"],
    ["service-stop"],
    ["service-restart"],
    hostReplacementActions ]

/-! ## Owners -/

/-- The owner columns of a lease are those of this owner; `acquiredAt` is the text
of its time. -/
def LeaseOwner.owns (owner : LeaseOwner) (acquiredAt : String) (operationId : String)
    (processId : Nat) (processStartRef bootIdentityRef leaseAcquiredAt : String) : Bool :=
  operationId = owner.operationId.text && processId = owner.processId &&
    processStartRef = owner.processStartRef.text && bootIdentityRef = owner.bootIdentityRef.text &&
    leaseAcquiredAt = acquiredAt

def MaintenanceLeaseRow.ownedBy (owner : LeaseOwner) (acquiredAt : String)
    (lease : MaintenanceLeaseRow) : Bool :=
  owner.owns acquiredAt lease.operationId lease.ownerProcessId lease.ownerProcessStartRef
    lease.ownerBootIdentityRef lease.acquiredAt

/-- The columns that `MaintenanceLeaseRow.ownedBy` compares. -/
def ControlLeaseRow.isOwnedBy (owner : LeaseOwner) (acquiredAt : String)
    (lease : ControlLeaseRow) : Bool :=
  owner.owns acquiredAt lease.operationId lease.ownerProcessId lease.ownerProcessStartRef
    lease.ownerBootIdentityRef lease.acquiredAt

/-- `EXISTS (SELECT 1 FROM control_leases WHERE operation_id = ?)`. -/
def hasControlLeaseOf (db : Database) (operationId : String) : Bool :=
  db.controlLeases.rows.any fun lease => lease.operationId = operationId

section Ledger
variable (codec : TimeCodec)

def requireActiveMaintenanceOwner (db : Database) (owner : LeaseOwner) :
    Except StorageError Unit := do
  let acquiredAt ← formatTime codec owner.acquiredAt
  ensure (db.maintenanceLeases.rows.any fun lease =>
    lease.ownedBy owner acquiredAt && lease.leaseState = "active") .stateConflict

/-- `release_active_maintenance_in_transaction`. -/
def releaseActiveMaintenance (db : Database) (owner : LeaseOwner) :
    Except StorageError Database := do
  let acquiredAt ← formatTime codec owner.acquiredAt
  let leases ← orFail .stateConflict (db.maintenanceLeases.deleteOne fun lease =>
    lease.ownedBy owner acquiredAt && lease.leaseState = "active" &&
      !hasControlLeaseOf db lease.operationId)
  return { db with maintenanceLeases := leases }

/-! ## Times -/

def requireNotBefore (transitionAt : OffsetDateTime) (storedBoundary : String) :
    Except StorageError Unit := do
  let boundary ← parseTime codec storedBoundary
  ensure (boundary ≤ transitionAt) .stateConflict

def loadRunStartedAt (db : Database) (runId : String) : Except StorageError String := do
  let run ← orFail .stateConflict (db.setupRuns.lookup runId)
  return run.startedAt

def actionsOf (db : Database) (runId : String) : List SetupActionRow :=
  (db.setupActions.rows.filter (·.runId = runId)).insertionSort (·.actionOrder ≤ ·.actionOrder)

/-- The statuses whose rows have a finishing time. -/
def SetupActionStatus.hasFinished : SetupActionStatus → Bool
  | .completed | .failed | .skipped | .outcomeUnknown => true
  | .planned | .started => false

def requireNotBeforeFinish (transitionAt : OffsetDateTime) (action : SetupActionRow) :
    Except StorageError Unit := do
  if action.status.hasFinished then
    let finishedAt ← orFail .invalidStoredState action.finishedAt
    requireNotBefore codec transitionAt finishedAt
  else return ()

def requireRunAndPredecessorTimes (db : Database) (runId actionId : String)
    (transitionAt : OffsetDateTime) : Except StorageError Unit := do
  let runStartedAt ← loadRunStartedAt db runId
  requireNotBefore codec transitionAt runStartedAt
  let current ← orFail .invalidInput (db.setupActions.lookup (runId, actionId))
  ((actionsOf db runId).filter (·.actionOrder < current.actionOrder)).forM
    (requireNotBeforeFinish codec transitionAt)

def requireStartedActionTime (db : Database) (runId actionId : String)
    (finishedAt : OffsetDateTime) : Except StorageError Unit := do
  let action ← orFail .invalidInput (db.setupActions.lookup (runId, actionId))
  ensure (action.status = .started) .stateConflict
  let startedAt ← orFail .invalidStoredState action.startedAt
  requireNotBefore codec finishedAt startedAt

def requireRunFinishTime (db : Database) (runId : String) (finishedAt : OffsetDateTime) :
    Except StorageError Unit := do
  let runStartedAt ← loadRunStartedAt db runId
  requireNotBefore codec finishedAt runStartedAt
  (db.setupActions.rows.filter (·.runId = runId)).forM (requireNotBeforeFinish codec finishedAt)

/-! ## Single transitions

Every update has to change exactly one row. -/

/-- `EXISTS (SELECT 1 FROM setup_runs WHERE run_id = ? AND status = 'running')`. -/
def isRunning (db : Database) (runId : String) : Bool :=
  db.setupRuns.rows.any fun run => run.runId = runId && run.status = "running"

def SetupActionRow.is (runId actionId : String) (action : SetupActionRow) : Bool :=
  action.runId = runId && action.actionId = actionId

/-- An update of one action. -/
def updateSetupAction (db : Database) (hit : SetupActionRow → Bool)
    (change : SetupActionRow → SetupActionRow)
    (keeps : ∀ action, (change action).key = action.key) : Except StorageError Database := do
  let actions ← orFail .stateConflict (db.setupActions.updateOne hit change keeps)
  return { db with setupActions := actions }

/-- `UPDATE setup_runs SET status, finished_at`. -/
def updateSetupRun (db : Database) (runId expected status : String)
    (finishedAt : Option String) : Except StorageError Database := do
  let runs ← orFail .stateConflict (db.setupRuns.updateOne
    (fun run => run.runId = runId && run.status = expected)
    (fun run => { run with status := status, finishedAt := finishedAt })
    (fun _ => rfl))
  return { db with setupRuns := runs }

def startSetupAction (db : Database) (owner : LeaseOwner) (actionId : String)
    (startedAt : OffsetDateTime) : Except StorageError Database := do
  let runId := owner.operationId.text
  let actionId ← validatedPrivateReference actionId
  requireActiveMaintenanceOwner codec db owner
  let existing ← orFail .invalidInput (db.setupActions.lookup (runId, actionId.text))
  if existing.status = .started ∨ existing.status = .completed then return db
  else
    requireRunAndPredecessorTimes codec db runId actionId.text startedAt
    let startedAt ← formatTime codec startedAt
    updateSetupAction db
      (fun action => action.is runId actionId.text && action.status = .planned &&
        isRunning db runId &&
        db.setupActions.rows.all fun predecessor => predecessor.runId ≠ runId ||
          !(predecessor.actionOrder < action.actionOrder) ||
          predecessor.status = .completed || predecessor.status = .skipped)
      (fun action => { action with status := .started, startedAt := some startedAt })
      (fun _ => rfl)

inductive StartedActionOutcome where
  | completed
  | failed (errorCode : PrivateReference) (exitStatus : Option Int)
      (recoveryHint : Option (NormalizedText maxRecoveryHintBytes))

/-- The status and the columns an outcome leaves. -/
def StartedActionOutcome.record (outcome : StartedActionOutcome) (finishedAt : String)
    (action : SetupActionRow) : SetupActionRow :=
  match outcome with
  | .completed => { action with
      status := .completed
      finishedAt := some finishedAt
      errorCode := none
      exitStatus := none
      recoveryHint := none }
  | .failed errorCode exitStatus recoveryHint => { action with
      status := .failed
      finishedAt := some finishedAt
      errorCode := some errorCode.text
      exitStatus := exitStatus
      recoveryHint := recoveryHint.map (·.text) }

@[simp] theorem StartedActionOutcome.record_key (outcome : StartedActionOutcome)
    (finishedAt : String) (action : SetupActionRow) :
    (outcome.record finishedAt action).key = action.key := by
  cases outcome <;> rfl

def transitionStartedAction (db : Database) (owner : LeaseOwner) (actionId : String)
    (outcome : StartedActionOutcome) (finishedAt : OffsetDateTime) :
    Except StorageError Database := do
  let runId := owner.operationId.text
  let actionId ← validatedPrivateReference actionId
  requireActiveMaintenanceOwner codec db owner
  let existing ← orFail .invalidInput (db.setupActions.lookup (runId, actionId.text))
  if outcome matches .completed ∧ existing.status = .completed then return db
  else
    requireStartedActionTime codec db runId actionId.text finishedAt
    let finishedAt ← formatTime codec finishedAt
    updateSetupAction db
      (fun action => action.is runId actionId.text && action.status = .started &&
        isRunning db runId)
      (outcome.record finishedAt)
      (outcome.record_key finishedAt)

def completeSetupAction (db : Database) (owner : LeaseOwner) (actionId : String)
    (completedAt : OffsetDateTime) : Except StorageError Database :=
  transitionStartedAction codec db owner actionId .completed completedAt

def failSetupAction (db : Database) (owner : LeaseOwner) (actionId errorCode : String)
    (exitStatus : Option Int) (recoveryHint : Option String) (failedAt : OffsetDateTime) :
    Except StorageError Database := do
  let errorCode ← validatedPrivateReference errorCode
  let recoveryHint ← recoveryHint.mapM (normalizedText maxRecoveryHintBytes)
  transitionStartedAction codec db owner actionId (.failed errorCode exitStatus recoveryHint)
    failedAt

def skipSetupAction (db : Database) (owner : LeaseOwner) (actionId : String)
    (reason : SetupActionSkipReason) (skippedAt : OffsetDateTime) :
    Except StorageError Database := do
  let runId := owner.operationId.text
  let actionId ← validatedPrivateReference actionId
  requireActiveMaintenanceOwner codec db owner
  requireRunAndPredecessorTimes codec db runId actionId.text skippedAt
  let skippedAt ← formatTime codec skippedAt
  updateSetupAction db
    (fun action => action.is runId actionId.text && action.status = .planned &&
      isRunning db runId &&
      db.setupActions.rows.all fun predecessor => predecessor.runId ≠ runId ||
        !(predecessor.actionOrder < action.actionOrder) ||
        !(predecessor.status = .planned || predecessor.status = .started))
    (fun action =>
      { action with status := .skipped, finishedAt := some skippedAt, skipReason := some reason })
    (fun _ => rfl)

/-! ## Ends of a run -/

/-- The sums both `finish_setup_run_in_transaction` and `terminal_setup_status` select. -/
structure SetupActionTally where
  pending : Nat
  completed : Nat
  failed : Nat
  unknown : Nat
  deriving DecidableEq, Repr

/-- Of no rows the sums are `NULL`, which is not read. -/
def tallySetupActions (db : Database) (runId : String) : Except StorageError SetupActionTally :=
  let actions := db.setupActions.rows.filter (·.runId = runId)
  if actions.isEmpty then fail .invalidStoredState
  else .ok {
    pending := actions.countP fun action => action.status = .planned || action.status = .started
    completed := actions.countP fun action => action.status = .completed
    failed := actions.countP fun action => action.status = .failed ||
      (action.status = .skipped && action.skipReason = some .dependencyFailed)
    unknown := actions.countP fun action => action.status = .outcomeUnknown }

def SetupActionTally.outcome (tally : SetupActionTally) : SetupRunStatus :=
  if tally.failed = 0 then .completed
  else if tally.completed = 0 then .failed
  else .partialFailure

def requireRunningRun (db : Database) (runId : String) : Except StorageError Unit :=
  ensure (isRunning db runId) .stateConflict

def finishSetupRunInTransaction (db : Database) (runId : String) (finishedAt : OffsetDateTime) :
    Except StorageError (SetupRunStatus × Database) := do
  requireRunningRun db runId
  requireRunFinishTime codec db runId finishedAt
  let tally ← tallySetupActions db runId
  ensure (tally.pending = 0) .stateConflict
  let status := if tally.unknown ≠ 0 then .outcomeUnknown else tally.outcome
  let finishedAt ← formatTime codec finishedAt
  let db ← updateSetupRun db runId "running" status.asStr (some finishedAt)
  return (status, db)

/-- What an interruption makes of a started action. -/
def SetupActionRow.interrupted (finishedAt : String) (action : SetupActionRow) : SetupActionRow :=
  { action with
    status := .outcomeUnknown
    finishedAt := some finishedAt
    recoveryHint := some outcomeUnknownRecoveryHint }

def markSetupRunOutcomeUnknownInTransaction (db : Database) (runId : String)
    (detectedAt : OffsetDateTime) : Except StorageError Database := do
  let detectedAt ← formatTime codec detectedAt
  let actions := db.setupActions.updateWhere
    (fun action => action.runId = runId && action.status = .started)
    (·.interrupted detectedAt)
    (fun _ => rfl)
  updateSetupRun { db with setupActions := actions } runId "running" "outcome_unknown"
    (some detectedAt)

def finishSetupRunAndReleaseMaintenance (db : Database) (owner : LeaseOwner)
    (finishedAt : OffsetDateTime) : Except StorageError (SetupRunStatus × Database) := do
  requireActiveMaintenanceOwner codec db owner
  let (status, db) ← finishSetupRunInTransaction codec db owner.operationId.text finishedAt
  let db ← releaseActiveMaintenance codec db owner
  return (status, db)

/-! ## Beginning a run -/

/-- The run a daemon of this version works on in a scope. -/
def activeSetupRunIdInScope (db : Database) (version : String)
    (desktopBinding : Option DesktopBindingRef) : Option String :=
  (db.setupRuns.rows.find? fun run => run.status = "running" && run.satelleVersion = version &&
    run.desktopBindingRef = desktopBinding.map (·.text)).map (·.runId)

def ensureNoMaintenance (db : Database) (hostIdentity : HostIdentityRef) :
    Except StorageError Unit :=
  match db.maintenanceLeases.lookup hostIdentity.text with
  | some lease => .error (.leaseConflictOperation lease.operationId)
  | none => .ok ()

/-- The first of the operations that hold a desktop of the Host is reported. -/
def ensureNoControlLease (db : Database) (hostIdentity : HostIdentityRef) :
    Except StorageError Unit :=
  match ((((db.controlLeases.rows.filter (·.hostIdentityRef = hostIdentity.text)).map
      (·.operationId)).insertionSort (· ≤ ·)).head?) with
  | some operationId => .error (.leaseConflictOperation operationId)
  | none => .ok ()

def insertSetupRun (db : Database) (version : String) (plan : SetupRunPlan)
    (hostIdentity : HostIdentityRef) : Except StorageError Database := do
  let startedAt ← formatTime codec plan.startedAt
  let runs ← orFail .stateConflict (db.setupRuns.insert {
    runId := plan.runId.text
    hostIdentityRef := hostIdentity.text
    desktopBindingRef := plan.desktopBinding.map (·.text)
    satelleVersion := version
    operationKind := plan.operationKind
    status := "running"
    startedAt := startedAt
    finishedAt := none
    hostUpdateTargetVersion := plan.hostUpdateRecoveryIdentity.map (·.targetVersion)
    hostUpdateArtifactDigest := plan.hostUpdateRecoveryIdentity.map (·.artifactDigest) })
  return { db with setupRuns := runs }

/-- A planned action as it is inserted. -/
def SetupActionPlan.row (runId : String) (action : SetupActionPlan) (order : Nat) :
    SetupActionRow where
  runId := runId
  actionId := action.actionId.text
  actionOrder := order
  actionLabel := action.label.text
  status := .planned
  startedAt := none
  finishedAt := none
  retrySafe := action.retrySafe
  errorCode := none
  exitStatus := none
  recoveryHint := none
  skipReason := none

def insertSetupAction (db : Database) (row : SetupActionRow) : Except StorageError Database := do
  ensure (db.setupActions.rows.all fun other =>
    other.runId ≠ row.runId || other.actionOrder ≠ row.actionOrder) .stateConflict
  let actions ← orFail .stateConflict (db.setupActions.insert row)
  return { db with setupActions := actions }

def insertMaintenanceLease (db : Database) (owner : LeaseOwner) (hostIdentity : HostIdentityRef) :
    Except StorageError Database := do
  let acquiredAt ← formatTime codec owner.acquiredAt
  ensure (db.maintenanceLeases.rows.all fun other => other.operationId ≠ owner.operationId.text)
    .leaseConflict
  let leases ← orFail .leaseConflict (db.maintenanceLeases.insert {
    hostIdentityRef := hostIdentity.text
    operationId := owner.operationId.text
    ownerProcessId := owner.processId
    ownerProcessStartRef := owner.processStartRef.text
    ownerBootIdentityRef := owner.bootIdentityRef.text
    acquiredAt := acquiredAt
    heartbeatAt := acquiredAt
    leaseState := "active" })
  return { db with maintenanceLeases := leases }

/-- The rows of a plan's actions, numbered from zero. -/
def SetupRunPlan.rows (plan : SetupRunPlan) : List SetupActionRow :=
  plan.actions.mapIdx fun order action => action.row plan.runId.text order

def beginSetupRunInTransaction (db : Database) (version : String) (plan : SetupRunPlan)
    (owner : LeaseOwner) (hostIdentity : HostIdentityRef) : Except StorageError Database := do
  ensure (plan.requiresIdentity = plan.hostUpdateRecoveryIdentity.isSome) .invalidInput
  ensureNoMaintenance db hostIdentity
  ensure ((activeSetupRunIdInScope db version plan.desktopBinding).isNone) .stateConflict
  ensureNoControlLease db hostIdentity
  let db ← insertSetupRun codec db version plan hostIdentity
  let db ← plan.rows.foldlM insertSetupAction db
  insertMaintenanceLease codec db owner hostIdentity

def beginSetupRun (db : Database) (version : String) (plan : SetupRunPlan) (owner : LeaseOwner) :
    Except StorageError Database := do
  ensure (plan.runId.text = owner.operationId.text) .invalidInput
  let hostIdentity ← hostIdentity db
  beginSetupRunInTransaction codec db version plan owner hostIdentity

/-- The one action of an on-demand handoff is started with the run. -/
def beginBootstrapMaintenance (db : Database) (version : String) (plan : SetupRunPlan)
    (owner : LeaseOwner) : Except StorageError Database := do
  ensure (plan.runId.text = owner.operationId.text ∧ plan.actionIds ∈ bootstrapShapes)
    .invalidInput
  let hostIdentity ← hostIdentity db
  let db ← beginSetupRunInTransaction codec db version plan owner hostIdentity
  if plan.actionIds = onDemandHandoff then
    let acquiredAt ← formatTime codec owner.acquiredAt
    updateSetupAction db
      (fun action => action.is plan.runId.text "bootstrap-handoff" && action.status = .planned)
      (fun action => { action with status := .started, startedAt := some acquiredAt })
      (fun _ => rfl)
  else return db

/-- The handoff of a bootstrap is completed unless it already is. -/
def completeBootstrapHandoff (db : Database) (runId : String) (finishedAt : OffsetDateTime) :
    Except StorageError Database := do
  let handoff ← orFail .stateConflict (db.setupActions.lookup (runId, "bootstrap-handoff"))
  match handoff.status with
  | .started =>
    requireRunAndPredecessorTimes codec db runId "bootstrap-handoff" finishedAt
    let finishedAt ← formatTime codec finishedAt
    updateSetupAction db
      (fun action => action.is runId "bootstrap-handoff" && action.status = .started &&
        isRunning db runId)
      (fun action => { action with status := .completed, finishedAt := some finishedAt })
      (fun _ => rfl)
  | .completed => return db
  | _ => fail .stateConflict

def completeBootstrapMaintenance (db : Database) (owner : LeaseOwner)
    (finishedAt : OffsetDateTime) : Except StorageError (SetupRunStatus × Database) := do
  let runId := owner.operationId.text
  requireActiveMaintenanceOwner codec db owner
  let db ← completeBootstrapHandoff codec db runId finishedAt
  let (status, db) ← finishSetupRunInTransaction codec db runId finishedAt
  ensure (status = .completed) .stateConflict
  let db ← releaseActiveMaintenance codec db owner
  return (status, db)

/-! ## Recovery -/

/-- The actions an adoption may resume. -/
def SetupActionRow.isResumable (action : SetupActionRow) : Bool :=
  action.status = .outcomeUnknown || action.status = .planned || action.status = .started ||
    (action.actionId = "bootstrap-handoff" && action.status = .completed)

def SetupActionStatus.resumeRank : SetupActionStatus → Nat
  | .outcomeUnknown => 0
  | .planned => 1
  | .started => 2
  | .completed | .failed | .skipped => 3

/-- The action an adoption resumes: by the rank of its status, then in order. -/
def recoveryAction (db : Database) (runId : String) : Option SetupActionRow :=
  (db.setupActions.rows.filter fun action => action.runId = runId &&
    (db.setupRuns.rows.any fun run => run.runId = runId && run.status = "outcome_unknown") &&
    action.isResumable).argmin fun action =>
      (toLex (action.status.resumeRank, action.actionOrder) : Nat ×ₗ Nat)

/-- A handoff that is completed stays so; any other action is started again. -/
def resumeSetupAction (db : Database) (runId : String) (resumed : SetupActionRow)
    (acquiredAt : String) : Except StorageError Database :=
  if resumed.status = .completed then .ok db
  else
    updateSetupAction db
      (fun action => action.is runId resumed.actionId && action.status = resumed.status)
      (fun action => { action with
        status := .started
        startedAt := action.startedAt.or (some acquiredAt)
        finishedAt := none
        recoveryHint := none })
      (fun _ => rfl)

/-- Every resumable status is one the later match accepts, so only the absence of an
action refuses the adoption here. -/
def adoptRecoveryMaintenance (db : Database) (operationId : String) (owner : LeaseOwner) :
    Except StorageError Database := do
  let operationId ← validatedPrivateReference operationId
  ensure (operationId.text = owner.operationId.text) .invalidInput
  let hostIdentity ← hostIdentity db
  let acquiredAt ← formatTime codec owner.acquiredAt
  let resumed ← orFail .stateConflict (recoveryAction db operationId.text)
  let db ← updateSetupRun db operationId.text "outcome_unknown" "running" none
  let db ← resumeSetupAction db operationId.text resumed acquiredAt
  let leases ← orFail .stateConflict (db.maintenanceLeases.updateOne
    (fun lease => lease.hostIdentityRef = hostIdentity.text &&
      lease.operationId = operationId.text && lease.leaseState = "recovery_pending")
    (fun lease => { lease with
      ownerProcessId := owner.processId
      ownerProcessStartRef := owner.processStartRef.text
      ownerBootIdentityRef := owner.bootIdentityRef.text
      acquiredAt := acquiredAt
      heartbeatAt := acquiredAt
      leaseState := "active" })
    (fun _ => rfl))
  return { db with maintenanceLeases := leases }

/-! ## Restart -/

def validatedStoredPrivateReference (value : String) : Except StorageError PrivateReference :=
  (validatedPrivateReference value).mapError fun _ => { kind := .invalidStoredState }

/-- The later of a time and a stored one, if there is one. -/
def laterOf (time : OffsetDateTime) (stored : Option String) :
    Except StorageError OffsetDateTime :=
  match stored with
  | none => .ok time
  | some text => do
    let other ← parseTime codec text
    return max time other

/-- When an interrupted run is recorded as such: not before anything it records. -/
def recoveryTime (db : Database) (detectedAt : OffsetDateTime) (run : SetupRunRow) :
    Except StorageError (String × OffsetDateTime) := do
  let runId ← validatedStoredPrivateReference run.runId
  let startedAt ← parseTime codec run.startedAt
  let time ← (db.setupActions.rows.filter (·.runId = run.runId)).foldlM (fun time action => do
    let time ← laterOf codec time action.startedAt
    laterOf codec time action.finishedAt) (max detectedAt startedAt)
  return (runId.text, time)

def interruptSetupAction (times : List (String × OffsetDateTime)) (db : Database)
    (action : SetupActionRow) : Except StorageError Database := do
  let runId ← validatedStoredPrivateReference action.runId
  let actionId ← validatedStoredPrivateReference action.actionId
  let recoveredAt ← orFail .invalidStoredState (times.lookup runId.text)
  let recoveredAt ← formatTime codec recoveredAt
  updateSetupAction db
    (fun action => action.is runId.text actionId.text && action.status = .started)
    (·.interrupted recoveredAt)
    (fun _ => rfl)

def interruptSetupRun (db : Database) (recovered : String × OffsetDateTime) :
    Except StorageError Database := do
  let recoveredAt ← formatTime codec recovered.2
  updateSetupRun db recovered.1 "running" "outcome_unknown" (some recoveredAt)

/-- Ownership stays, in the state that recovery looks for. -/
def markMaintenanceLeases (db : Database) : Database :=
  let leases := db.maintenanceLeases.updateWhere (fun lease => lease.leaseState = "active")
    (fun lease => { lease with leaseState := "recovery_pending" })
    MaintenanceLeaseRow.host_pending
  { db with maintenanceLeases := leases }

def markInterruptedSetupActionsOutcomeUnknown (db : Database) (detectedAt : OffsetDateTime) :
    Except StorageError Database := do
  let times ← (db.setupRuns.rows.filter (·.status = "running")).mapM
    (recoveryTime codec db detectedAt)
  let interrupted := db.setupActions.rows.filter fun action =>
    action.status = .started && isRunning db action.runId
  let db ← interrupted.foldlM (interruptSetupAction codec times) db
  let db ← times.foldlM (interruptSetupRun codec) db
  return markMaintenanceLeases db

/-! ## Reading a run -/

structure SetupActionRecord where
  actionId : String
  order : Nat
  label : String
  status : SetupActionStatus
  startedAt : Option OffsetDateTime
  finishedAt : Option OffsetDateTime
  retrySafe : Bool
  errorCode : Option String
  exitStatus : Option Int
  recoveryHint : Option String
  skipReason : Option SetupActionSkipReason
  deriving DecidableEq

structure SetupRunRecord where
  runId : String
  operationKind : SetupOperationKind
  desktopBinding : Option DesktopBindingRef
  satelleVersion : String
  status : SetupRunStatus
  startedAt : OffsetDateTime
  finishedAt : Option OffsetDateTime
  actions : List SetupActionRecord
  hostUpdateRecoveryIdentity : Option HostUpdateRecoveryIdentity
  deriving DecidableEq

def normalizedStoredText (maximumBytes : Nat) (value : String) :
    Except StorageError (NormalizedText maximumBytes) :=
  (normalizedText maximumBytes value).mapError fun _ => { kind := .invalidStoredState }

def loadSetupAction (row : SetupActionRow) : Except StorageError SetupActionRecord := do
  let actionId ← validatedStoredPrivateReference row.actionId
  let label ← normalizedStoredText maxActionLabelBytes row.actionLabel
  let startedAt ← row.startedAt.mapM (parseTime codec)
  let finishedAt ← row.finishedAt.mapM (parseTime codec)
  let errorCode ← row.errorCode.mapM validatedStoredPrivateReference
  let recoveryHint ← row.recoveryHint.mapM (normalizedStoredText maxRecoveryHintBytes)
  return {
    actionId := actionId.text
    order := row.actionOrder
    label := label.text
    status := row.status
    startedAt := startedAt
    finishedAt := finishedAt
    retrySafe := row.retrySafe
    errorCode := errorCode.map (·.text)
    exitStatus := row.exitStatus
    recoveryHint := recoveryHint.map (·.text)
    skipReason := row.skipReason }

def loadRecoveryIdentity : Option String → Option String →
    Except StorageError (Option HostUpdateRecoveryIdentity)
  | some targetVersion, some artifactDigest =>
    if accepted : isHostUpdateRecoveryIdentity targetVersion artifactDigest = true then
      .ok (some ⟨targetVersion, artifactDigest, accepted⟩)
    else fail .invalidStoredState
  | none, none => .ok none
  | _, _ => fail .invalidStoredState

def loadSetupRun (db : Database) (runId : String) :
    Except StorageError (Option SetupRunRecord) := do
  let runId ← validatedPrivateReference runId
  match db.setupRuns.lookup runId.text with
  | none => return none
  | some run => do
    let desktopBinding ← run.desktopBindingRef.mapM fun value => storedReference value
    let actions ← (actionsOf db runId.text).mapM (loadSetupAction codec)
    let identity ← loadRecoveryIdentity run.hostUpdateTargetVersion run.hostUpdateArtifactDigest
    let storedRunId ← validatedStoredPrivateReference run.runId
    let version ← validatedStoredPrivateReference run.satelleVersion
    let status ← SetupRunStatus.parse run.status
    let startedAt ← parseTime codec run.startedAt
    let finishedAt ← run.finishedAt.mapM (parseTime codec)
    return some {
      runId := storedRunId.text
      operationKind := run.operationKind
      desktopBinding := desktopBinding
      satelleVersion := version.text
      status := status
      startedAt := startedAt
      finishedAt := finishedAt
      actions := actions
      hostUpdateRecoveryIdentity := identity }

/-! ## Reconciliation -/

structure MaintenanceRecoverySubject where
  owner : LeaseOwner
  run : SetupRunRecord
  hasPostcheck : Bool

/-- `VerifiedSetupPostconditions`: what was observed of the actions whose outcome is
unknown. -/
abbrev VerifiedSetupPostconditions := List (String × Bool)

def SetupOperationKind.unsatisfiedCode : SetupOperationKind → String
  | .setup => "setup_postcondition_unsatisfied"
  | .repair => "repair_postcondition_unsatisfied"
  | .hostUpdate => "host_update_postcondition_unsatisfied"
  | .storageMigration => "storage_migration_postcondition_unsatisfied"
  | .serviceStop => "service_stop_postcondition_unsatisfied"
  | .serviceRestart => "service_restart_postcondition_unsatisfied"

def requireRecoveryMaintenanceOwner (db : Database) (owner : LeaseOwner) :
    Except StorageError Unit := do
  let acquiredAt ← formatTime codec owner.acquiredAt
  ensure (db.maintenanceLeases.rows.any fun lease => lease.ownedBy owner acquiredAt &&
    lease.leaseState = "recovery_pending" &&
    db.setupRuns.rows.any fun run => run.runId = lease.operationId &&
      run.status = "outcome_unknown") .stateConflict

/-- The outcomes of the actions that the subject reports as unknown. -/
def reconciledOutcomes (run : SetupRunRecord) (verified : VerifiedSetupPostconditions) :
    Except StorageError (List (String × Bool)) :=
  (run.actions.filter (·.status = .outcomeUnknown)).mapM fun action => do
    let satisfied ← orFail .invalidInput (verified.lookup action.actionId)
    return (action.actionId, satisfied)

/-- Not before the run began, nor before any of its actions ended. -/
def SetupRunRecord.reconciledAt (run : SetupRunRecord) (now : OffsetDateTime) : OffsetDateTime :=
  (run.actions.filterMap (·.finishedAt)).foldl max (max now run.startedAt)

def SetupActionRow.reconciled (unsatisfiedCode : String) (satisfied : Bool) (finishedAt : String)
    (action : SetupActionRow) : SetupActionRow :=
  if satisfied then
    { action with
      status := .completed
      finishedAt := some finishedAt
      errorCode := none
      recoveryHint := none }
  else
    { action with
      status := .failed
      finishedAt := some finishedAt
      errorCode := some unsatisfiedCode
      recoveryHint := some "inspect the failed postcondition before retrying maintenance" }

@[simp] theorem SetupActionRow.reconciled_key (unsatisfiedCode : String) (satisfied : Bool)
    (finishedAt : String) (action : SetupActionRow) :
    (action.reconciled unsatisfiedCode satisfied finishedAt).key = action.key := by
  cases satisfied <;> rfl

def reconcileSetupAction (runId unsatisfiedCode finishedAt : String) (db : Database)
    (outcome : String × Bool) : Except StorageError Database :=
  updateSetupAction db
    (fun action => action.is runId outcome.1 && action.status = .outcomeUnknown)
    (·.reconciled unsatisfiedCode outcome.2 finishedAt)
    (fun action => action.reconciled_key unsatisfiedCode outcome.2 finishedAt)

def terminalSetupStatus (db : Database) (runId : String) : Except StorageError SetupRunStatus := do
  let tally ← tallySetupActions db runId
  ensure (tally.pending = 0 ∧ tally.unknown = 0) .stateConflict
  return tally.outcome

/-- `now` is the clock reading of the call. -/
def reconcileMaintenanceAfterRestart (db : Database) (subject : MaintenanceRecoverySubject)
    (verified : VerifiedSetupPostconditions) (now : OffsetDateTime) :
    Except StorageError (Option SetupRunStatus × Database) :=
  if subject.hasPostcheck then .ok (none, db)
  else do
    let runId := subject.owner.operationId.text
    let outcomes ← reconciledOutcomes subject.run verified
    let acquiredAt ← formatTime codec subject.owner.acquiredAt
    requireRecoveryMaintenanceOwner codec db subject.owner
    let reconciledAt ← formatTime codec (subject.run.reconciledAt now)
    let db ← outcomes.foldlM
      (reconcileSetupAction runId subject.run.operationKind.unsatisfiedCode reconciledAt) db
    let actions := db.setupActions.updateWhere
      (fun action => action.runId = runId && action.status = .planned)
      (fun action => { action with
        status := .skipped
        finishedAt := some reconciledAt
        skipReason := some .dependencyFailed })
      (fun _ => rfl)
    let db := { db with setupActions := actions }
    let status ← terminalSetupStatus db runId
    let db ← updateSetupRun db runId "outcome_unknown" status.asStr (some reconciledAt)
    let leases ← orFail .stateConflict (db.maintenanceLeases.deleteOne fun lease =>
      lease.ownedBy subject.owner acquiredAt && lease.leaseState = "recovery_pending" &&
        !hasControlLeaseOf db lease.operationId)
    return (some status, { db with maintenanceLeases := leases })

end Ledger

end Satelle.Host
