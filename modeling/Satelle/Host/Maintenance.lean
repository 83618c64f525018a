import Satelle.Host.Store
import Satelle.Host.Operational

/-! The store with its maintenance operations and probes as a state machine. A call
is one serialized transaction with its arguments and clock readings; a restart is
two of them. -/
namespace Satelle.Host
open Satelle.Core Lib

inductive MaintenanceCall where
  | store (call : StoreCall)
  /-- `version` is that of the daemon that serves the call. -/
  | beginSetupRun (version : String) (plan : SetupRunPlan) (owner : LeaseOwner)
  | beginBootstrapMaintenance (version : String) (plan : SetupRunPlan) (owner : LeaseOwner)
  | startSetupAction (owner : LeaseOwner) (actionId : String) (startedAt : OffsetDateTime)
  | completeSetupAction (owner : LeaseOwner) (actionId : String) (completedAt : OffsetDateTime)
  | failSetupAction (owner : LeaseOwner) (actionId errorCode : String) (exitStatus : Option Int)
      (recoveryHint : Option String) (failedAt : OffsetDateTime)
  | skipSetupAction (owner : LeaseOwner) (actionId : String) (reason : SetupActionSkipReason)
      (skippedAt : OffsetDateTime)
  | completeBootstrapMaintenance (owner : LeaseOwner) (finishedAt : OffsetDateTime)
  | finishSetupRun (owner : LeaseOwner) (finishedAt : OffsetDateTime)
  | beginMaintenancePostcheck (desktopBinding : DesktopBindingRef)
      (nativeProbeRef postcheckActionId : String) (owner : LeaseOwner)
  | finishMaintenancePostcheck (owner : LeaseOwner) (nativeProbeRef postcheckActionId : String)
      (verified : VerifiedMaintenancePostcheck) (stored : Except StorageError Unit)
      (now : OffsetDateTime)
  | retainLeaseRecovery (owner : LeaseOwner) (now : OffsetDateTime)
  | adoptRecoveryMaintenance (operationId : String) (owner : LeaseOwner)
  | reconcileMaintenance (subject : MaintenanceRecoverySubject)
      (verified : VerifiedSetupPostconditions) (now : OffsetDateTime)
  | refreshLeaseHeartbeat (owner : LeaseOwner) (heartbeatAt : OffsetDateTime)
  | beginReadinessProbe (kind : ReadinessProbeKind) (desktopBinding : DesktopBindingRef)
      (probeRef : String) (owner : LeaseOwner) (now : OffsetDateTime)
  | releaseReadinessProbe (kind : ReadinessProbeKind) (probeRef : String)
  | retainProbeRecovery (kind : ReadinessProbeKind) (probeRef : String)
  | finishNativeProbeSuccess (probeRef : String) (stored : Except StorageError Unit)
  | finishProbeFailure (kind : ReadinessProbeKind) (probeRef : String)
      (stored : Except StorageError Unit) (terminal : ReadinessProbeTerminal)
  | releaseReconciledProviderProbe (probeRef : String)
  | releaseReconciledNativeProbe (probeRef : String)
  | initializeRestartRecovery (detectedAt : OffsetDateTime) (clock : SessionId → OffsetDateTime)

inductive MaintenanceReply where
  | store (reply : StoreReply)
  | capability (owner : LeaseOwner)
  | done
  | finished (status : SetupRunStatus)
  | ended (status : Option SetupRunStatus)
  | refreshed (changed : Nat)
  | recovered (subjects : List RecoverySubject)

section Serve
variable (codec : TimeCodec)

/-- The first transaction stays when the second fails. The marks on the records of
other operations are left out. -/
def initializeRestartRecovery (db : Database) (detectedAt : OffsetDateTime)
    (clock : SessionId → OffsetDateTime) : Except StorageError (List RecoverySubject) × Database :=
  match markInterruptedSetupActionsOutcomeUnknown codec db detectedAt with
  | .error failure => (.error failure, db)
  | .ok marked => transact marked id (markRestartRecoveryPending codec marked clock)

/-- A transaction that returns nothing of its own. -/
def commitWith (db : Database) (reply : MaintenanceReply) (result : Except StorageError Database) :
    Except StorageError MaintenanceReply × Database :=
  transact db (fun _ => reply) (result.map (Prod.mk ()))

def serveMaintenance (db : Database) :
    MaintenanceCall → Except StorageError MaintenanceReply × Database
  | .store call =>
    ((serve codec db call).1.map .store, (serve codec db call).2)
  | .beginSetupRun version plan owner =>
    commitWith db (.capability owner) (beginSetupRun codec db version plan owner)
  | .beginBootstrapMaintenance version plan owner =>
    commitWith db (.capability owner) (beginBootstrapMaintenance codec db version plan owner)
  | .startSetupAction owner actionId startedAt =>
    commitWith db .done (startSetupAction codec db owner actionId startedAt)
  | .completeSetupAction owner actionId completedAt =>
    commitWith db .done (completeSetupAction codec db owner actionId completedAt)
  | .failSetupAction owner actionId errorCode exitStatus recoveryHint failedAt =>
    commitWith db .done
      (failSetupAction codec db owner actionId errorCode exitStatus recoveryHint failedAt)
  | .skipSetupAction owner actionId reason skippedAt =>
    commitWith db .done (skipSetupAction codec db owner actionId reason skippedAt)
  | .completeBootstrapMaintenance owner finishedAt =>
    transact db .finished (completeBootstrapMaintenance codec db owner finishedAt)
  | .finishSetupRun owner finishedAt =>
    transact db .finished (finishSetupRunAndReleaseMaintenance codec db owner finishedAt)
  | .beginMaintenancePostcheck desktopBinding nativeProbeRef postcheckActionId owner =>
    commitWith db .done
      (beginMaintenancePostcheck codec db desktopBinding nativeProbeRef postcheckActionId owner)
  | .finishMaintenancePostcheck owner nativeProbeRef postcheckActionId verified stored now =>
    transact db .ended (finishMaintenancePostcheck codec db owner nativeProbeRef postcheckActionId
      verified stored now)
  | .retainLeaseRecovery owner now => commitWith db .done (retainLeaseRecovery codec db owner now)
  | .adoptRecoveryMaintenance operationId owner =>
    commitWith db (.capability owner) (adoptRecoveryMaintenance codec db operationId owner)
  | .reconcileMaintenance subject verified now =>
    transact db .ended (reconcileMaintenanceAfterRestart codec db subject verified now)
  | .refreshLeaseHeartbeat owner heartbeatAt =>
    transact db .refreshed (refreshLeaseHeartbeat codec db owner heartbeatAt)
  | .beginReadinessProbe kind desktopBinding probeRef owner now =>
    commitWith db .done (beginReadinessProbe codec db kind desktopBinding probeRef owner now)
  | .releaseReadinessProbe kind probeRef =>
    commitWith db .done (releaseReadinessProbe db kind probeRef)
  | .retainProbeRecovery kind probeRef => commitWith db .done (retainProbeRecovery db kind probeRef)
  | .finishNativeProbeSuccess probeRef stored =>
    commitWith db .done (finishNativeProbeSuccess db probeRef stored)
  | .finishProbeFailure kind probeRef stored terminal =>
    commitWith db .done (finishProbeFailure db kind probeRef stored terminal)
  | .releaseReconciledProviderProbe probeRef =>
    commitWith db .done (releaseReconciledProviderProbe db probeRef)
  | .releaseReconciledNativeProbe probeRef =>
    commitWith db .done (releaseReconciledNativeProbe db probeRef)
  | .initializeRestartRecovery detectedAt clock =>
    ((initializeRestartRecovery codec db detectedAt clock).1.map .recovered,
      (initializeRestartRecovery codec db detectedAt clock).2)

/-- A store that has held no lease and no run yet. -/
structure Unmaintained (db : Database) : Prop where
  fresh : Fresh db
  controlLeases : db.controlLeases.rows = []
  maintenanceLeases : db.maintenanceLeases.rows = []
  setupRuns : db.setupRuns.rows = []
  setupActions : db.setupActions.rows = []

/-- A store that calls meeting a condition lead to. -/
def MaintainedBy (allowed : Database → MaintenanceCall → Prop) (db : Database) : Prop :=
  ∃ start, Unmaintained start ∧
    Relation.ReflTransGen (fun before after => ∃ call, allowed before call ∧
      (serveMaintenance codec before call).2 = after) start db

end Serve

end Satelle.Host
