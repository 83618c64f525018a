import Satelle.Host.SetupLedger

/-! The leases of `host/storage/operational.rs`: the maintenance lease with the
control sublease of its postcheck, heartbeats, and the leases of readiness probes.
The tables of readiness results are left out; what storing evidence in them comes to
is an argument. -/
namespace Satelle.Host
open Satelle.Core
open StorageError (fail)

inductive ReadinessProbeKind where
  | native | provider
  deriving DecidableEq, Repr

def ReadinessProbeKind.ownerKind : ReadinessProbeKind → String
  | .native => "native_probe"
  | .provider => "provider_probe"

/-- The column `reference_column` names. -/
def ReadinessProbeKind.reference (kind : ReadinessProbeKind) (lease : ControlLeaseRow) :
    Option String :=
  match kind with
  | .native => lease.nativeProbeRef
  | .provider => lease.providerProbeRef

inductive ReadinessProbeTerminal where
  | failed | timedOut | outcomeUnknown
  deriving DecidableEq, Repr

/-- `VerifiedMaintenancePostcheck`, without its evidence. -/
inductive VerifiedMaintenancePostcheck where
  | passed
  | failed (terminal : ReadinessProbeTerminal)
  | unknown
  deriving DecidableEq, Repr

/-- The probe has this reference and its lease is in this state. -/
def ControlLeaseRow.isProbe (kind : ReadinessProbeKind) (probeRef leaseState : String)
    (lease : ControlLeaseRow) : Bool :=
  lease.ownerKind = kind.ownerKind && kind.reference lease = some probeRef &&
    lease.leaseState = leaseState

section Operational
variable (codec : TimeCodec)

def LeaseOwner.new (operationId : String) (processId : Nat)
    (processStartRef bootIdentityRef : String) (acquiredAt : OffsetDateTime) :
    Except StorageError LeaseOwner := do
  let operationId ← validatedPrivateReference operationId
  let processStartRef ← validatedPrivateReference processStartRef
  let bootIdentityRef ← validatedPrivateReference bootIdentityRef
  if bounds : 0 < processId ∧ processId < u32Size then
    return ⟨operationId, processId, processStartRef, bootIdentityRef, acquiredAt, bounds⟩
  else fail .invalidInput

/-! ## Control leases of probes -/

/-- The lease of a probe: an ordinary one, or the sublease of a postcheck. -/
def probeLease (kind : ReadinessProbeKind) (hostIdentity : HostIdentityRef)
    (desktopBinding : DesktopBindingRef) (probeRef : PrivateReference) (owner : LeaseOwner)
    (acquiredAt : String) : ControlLeaseRow where
  hostIdentityRef := hostIdentity.text
  desktopBindingRef := desktopBinding.text
  operationId := owner.operationId.text
  ownerProcessId := owner.processId
  ownerProcessStartRef := owner.processStartRef.text
  ownerBootIdentityRef := owner.bootIdentityRef.text
  acquiredAt := acquiredAt
  heartbeatAt := acquiredAt
  leaseState := "active"
  ownerKind := kind.ownerKind
  sessionId := none
  turnId := none
  providerProbeRef := if kind = .provider then some probeRef.text else none
  nativeProbeRef := if kind = .native then some probeRef.text else none

/-- The reference of a probe is unique among the probes of its kind. -/
def insertProbeLease (db : Database) (kind : ReadinessProbeKind) (hostIdentity : HostIdentityRef)
    (desktopBinding : DesktopBindingRef) (probeRef : PrivateReference) (owner : LeaseOwner) :
    Except StorageError Database := do
  let acquiredAt ← formatTime codec owner.acquiredAt
  ensure (db.controlLeases.rows.all fun other =>
    other.ownerKind ≠ kind.ownerKind || kind.reference other ≠ some probeRef.text) .leaseConflict
  let leases ← orFail .leaseConflict (db.controlLeases.insert
    (probeLease kind hostIdentity desktopBinding probeRef owner acquiredAt))
  return { db with controlLeases := leases }

/-- `begin_native_probe` and `begin_provider_probe`. -/
def beginReadinessProbe (db : Database) (kind : ReadinessProbeKind)
    (desktopBinding : DesktopBindingRef) (probeRef : String) (owner : LeaseOwner)
    (now : OffsetDateTime) : Except StorageError Database := do
  let hostIdentity ← hostIdentity db
  let probeRef ← validatedPrivateReference probeRef
  ensureControlLeaseAvailable codec db hostIdentity desktopBinding now
  insertProbeLease codec db kind hostIdentity desktopBinding probeRef owner

/-- The one lease of a probe is released. -/
def deleteProbeLease (db : Database) (hit : ControlLeaseRow → Bool) :
    Except StorageError Database := do
  let leases ← orFail .stateConflict (db.controlLeases.deleteOne hit)
  return { db with controlLeases := leases }

/-- `release_native_probe`, `release_provider_probe`. -/
def releaseReadinessProbe (db : Database) (kind : ReadinessProbeKind) (probeRef : String) :
    Except StorageError Database :=
  deleteProbeLease db (·.isProbe kind probeRef "active")

/-- `retain_native_probe_recovery`, `retain_provider_probe_recovery`. -/
def retainProbeRecovery (db : Database) (kind : ReadinessProbeKind) (probeRef : String) :
    Except StorageError Database := do
  let leases ← orFail .stateConflict (db.controlLeases.updateOne
    (·.isProbe kind probeRef "active")
    (fun lease => { lease with leaseState := "recovery_pending" })
    ControlLeaseRow.key_pending)
  return { db with controlLeases := leases }

def finishNativeProbeSuccess (db : Database) (probeRef : String)
    (stored : Except StorageError Unit) : Except StorageError Database := do
  stored
  releaseReadinessProbe db .native probeRef

/-- `finish_native_probe_failure`, `finish_provider_probe_failure`. -/
def finishProbeFailure (db : Database) (kind : ReadinessProbeKind) (probeRef : String)
    (stored : Except StorageError Unit) (terminal : ReadinessProbeTerminal) :
    Except StorageError Database := do
  stored
  match terminal with
  | .failed | .timedOut => releaseReadinessProbe db kind probeRef
  | .outcomeUnknown => retainProbeRecovery db kind probeRef

def releaseReconciledProviderProbe (db : Database) (probeRef : String) :
    Except StorageError Database :=
  deleteProbeLease db (·.isProbe .provider probeRef "recovery_pending")

/-- The sublease of a maintenance lease is not released here. -/
def releaseReconciledNativeProbe (db : Database) (probeRef : String) :
    Except StorageError Database :=
  deleteProbeLease db fun lease => lease.isProbe .native probeRef "recovery_pending" &&
    db.maintenanceLeases.rows.all fun maintenance =>
      maintenance.hostIdentityRef ≠ lease.hostIdentityRef ||
        maintenance.operationId ≠ lease.operationId

/-! ## The postcheck of a maintenance operation -/

def beginMaintenancePostcheck (db : Database) (desktopBinding : DesktopBindingRef)
    (nativeProbeRef postcheckActionId : String) (owner : LeaseOwner) :
    Except StorageError Database := do
  let hostIdentity ← hostIdentity db
  let nativeProbeRef ← validatedPrivateReference nativeProbeRef
  let postcheckActionId ← validatedPrivateReference postcheckActionId
  let acquiredAt ← formatTime codec owner.acquiredAt
  ensure (db.maintenanceLeases.rows.any fun lease =>
    lease.hostIdentityRef = hostIdentity.text && lease.ownedBy owner acquiredAt &&
      lease.leaseState = "active") .leaseConflict
  ensure (db.setupActions.rows.any fun action =>
    action.is owner.operationId.text postcheckActionId.text && action.status = .started &&
      isRunning db owner.operationId.text) .stateConflict
  ensure (db.controlLeases.rows.all (·.hostIdentityRef ≠ hostIdentity.text)) .leaseConflict
  insertProbeLease codec db .native hostIdentity desktopBinding nativeProbeRef owner

/-- The pair a postcheck ends: both leases with their owner, active. -/
def ownsPostcheckPair (db : Database) (hostIdentity : HostIdentityRef) (owner : LeaseOwner)
    (acquiredAt : String) (nativeProbeRef : PrivateReference) : Bool :=
  (db.maintenanceLeases.rows.any fun lease => lease.hostIdentityRef = hostIdentity.text &&
    lease.ownedBy owner acquiredAt && lease.leaseState = "active") &&
  (db.controlLeases.rows.any fun lease => lease.hostIdentityRef = hostIdentity.text &&
    lease.isOwnedBy owner acquiredAt && lease.isProbe .native nativeProbeRef.text "active")

/-- The status, error code and hint a postcheck leaves on its action. -/
def SetupActionRow.postchecked (verified : VerifiedMaintenancePostcheck) (finishedAt : String)
    (action : SetupActionRow) : SetupActionRow :=
  match verified with
  | .passed => { action with
      status := .completed
      finishedAt := some finishedAt
      errorCode := none
      recoveryHint := none }
  | .failed .failed => { action with
      status := .failed
      finishedAt := some finishedAt
      errorCode := some "maintenance_postcheck_failed"
      recoveryHint := some "inspect readiness before retrying maintenance" }
  | .failed .timedOut => { action with
      status := .failed
      finishedAt := some finishedAt
      errorCode := some "maintenance_postcheck_timed_out"
      recoveryHint := some "confirm the readiness probe stopped before retrying maintenance" }
  | .failed .outcomeUnknown | .unknown => { action with
      status := .outcomeUnknown
      finishedAt := some finishedAt
      errorCode := none
      recoveryHint := some outcomeUnknownRecoveryHint }

@[simp] theorem SetupActionRow.postchecked_key (verified : VerifiedMaintenancePostcheck)
    (finishedAt : String) (action : SetupActionRow) :
    (action.postchecked verified finishedAt).key = action.key := by
  cases verified with
  | passed => rfl
  | unknown => rfl
  | failed terminal => cases terminal <;> rfl

/-- Evidence is stored for every terminal result but an unknown one. A failure that
is itself unknown has evidence and no status to store it under. -/
def storePostcheckEvidence (verified : VerifiedMaintenancePostcheck)
    (stored : Except StorageError Unit) : Except StorageError Unit :=
  match verified with
  | .passed | .failed .failed | .failed .timedOut => stored
  | .failed .outcomeUnknown => fail .invalidStoredState
  | .unknown => .ok ()

/-- The leases of an operation that is active are handed to recovery. -/
def retainControlLeases (db : Database) (owner : LeaseOwner) (acquiredAt : String) : Database :=
  let leases := db.controlLeases.updateWhere
    (fun lease => lease.isOwnedBy owner acquiredAt && lease.leaseState = "active")
    (fun lease => { lease with leaseState := "recovery_pending" })
    ControlLeaseRow.key_pending
  { db with controlLeases := leases }

def retainMaintenanceLease (db : Database) (owner : LeaseOwner) (acquiredAt : String) : Database :=
  let leases := db.maintenanceLeases.updateWhere
    (fun lease => lease.ownedBy owner acquiredAt && lease.leaseState = "active")
    (fun lease => { lease with leaseState := "recovery_pending" })
    MaintenanceLeaseRow.host_pending
  { db with maintenanceLeases := leases }

/-- How many leases of each table are the owner's and active. -/
def countControlLeases (db : Database) (owner : LeaseOwner) (acquiredAt : String) : Nat :=
  db.controlLeases.rows.countP fun lease =>
    lease.isOwnedBy owner acquiredAt && lease.leaseState = "active"

def countMaintenanceLeases (db : Database) (owner : LeaseOwner) (acquiredAt : String) : Nat :=
  db.maintenanceLeases.rows.countP fun lease =>
    lease.ownedBy owner acquiredAt && lease.leaseState = "active"

/-- `now` is the clock reading of the call. -/
def finishMaintenancePostcheck (db : Database) (owner : LeaseOwner)
    (nativeProbeRef postcheckActionId : String) (verified : VerifiedMaintenancePostcheck)
    (stored : Except StorageError Unit) (now : OffsetDateTime) :
    Except StorageError (Option SetupRunStatus × Database) := do
  let runId := owner.operationId.text
  let nativeProbeRef ← validatedPrivateReference nativeProbeRef
  let postcheckActionId ← validatedPrivateReference postcheckActionId
  let hostIdentity ← hostIdentity db
  let acquiredAt ← formatTime codec owner.acquiredAt
  ensure (ownsPostcheckPair db hostIdentity owner acquiredAt nativeProbeRef) .leaseConflict
  let finishedAt ← formatTime codec now
  let db ← updateSetupAction db
    (fun action => action.is runId postcheckActionId.text && action.status = .started &&
      isRunning db runId)
    (·.postchecked verified finishedAt)
    (fun action => action.postchecked_key verified finishedAt)
  storePostcheckEvidence verified stored
  if verified = .unknown then
    let db ← markSetupRunOutcomeUnknownInTransaction codec db runId now
    ensure (countControlLeases db owner acquiredAt = 1) .stateConflict
    ensure (countMaintenanceLeases db owner acquiredAt = 1) .stateConflict
    return (none, retainMaintenanceLease (retainControlLeases db owner acquiredAt) owner acquiredAt)
  else
    let (status, db) ← finishSetupRunInTransaction codec db runId now
    let controls ← orFail .stateConflict (db.controlLeases.deleteOne fun lease =>
      lease.hostIdentityRef = hostIdentity.text && lease.isOwnedBy owner acquiredAt &&
        lease.isProbe .native nativeProbeRef.text "active")
    let maintenance ← orFail .stateConflict (db.maintenanceLeases.deleteOne fun lease =>
      lease.hostIdentityRef = hostIdentity.text && lease.ownedBy owner acquiredAt &&
        lease.leaseState = "active")
    return (some status, { db with controlLeases := controls, maintenanceLeases := maintenance })

/-! ## Liveness of an owner -/

/-- The control leases of the Host on which the operation has a maintenance lease. -/
def expectedControlLeases (db : Database) (operationId : String) : Nat :=
  match db.maintenanceLeases.rows.find? (·.operationId = operationId) with
  | some maintenance =>
    db.controlLeases.rows.countP (·.hostIdentityRef = maintenance.hostIdentityRef)
  | none => 0

/-- A run that is still running is lost with its owner. -/
def loseRunningSetupRun (db : Database) (runId : String) (now : OffsetDateTime) :
    Except StorageError Database :=
  if isRunning db runId then markSetupRunOutcomeUnknownInTransaction codec db runId now else .ok db

/-- `now` is the clock reading of the call. -/
def retainLeaseRecovery (db : Database) (owner : LeaseOwner) (now : OffsetDateTime) :
    Except StorageError Database := do
  let runId := owner.operationId.text
  let acquiredAt ← formatTime codec owner.acquiredAt
  let expectedControl := expectedControlLeases db runId
  ensure (expectedControl ≤ 1) .invalidStoredState
  let db ← loseRunningSetupRun codec db runId now
  ensure (countMaintenanceLeases db owner acquiredAt = 1 ∧
    countControlLeases db owner acquiredAt = expectedControl) .stateConflict
  return retainMaintenanceLease (retainControlLeases db owner acquiredAt) owner acquiredAt

/-- The Hosts on which a lease is the owner's, in whatever state. -/
def ownedHosts (db : Database) (owner : LeaseOwner) (acquiredAt : String) : List String :=
  (db.controlLeases.rows.filter (·.isOwnedBy owner acquiredAt)).map (·.hostIdentityRef) ++
    (db.maintenanceLeases.rows.filter (·.ownedBy owner acquiredAt)).map (·.hostIdentityRef)

/-- The leases of those Hosts, whoever owns them. -/
def expectedHeartbeats (db : Database) (owner : LeaseOwner) (acquiredAt : String) : Nat :=
  (db.controlLeases.rows.countP (·.hostIdentityRef ∈ ownedHosts db owner acquiredAt)) +
    db.maintenanceLeases.rows.countP (·.hostIdentityRef ∈ ownedHosts db owner acquiredAt)

def refreshLeaseHeartbeat (db : Database) (owner : LeaseOwner) (heartbeatAt : OffsetDateTime) :
    Except StorageError (Nat × Database) := do
  let heartbeatAt ← formatTime codec heartbeatAt
  let acquiredAt ← formatTime codec owner.acquiredAt
  let changed := countControlLeases db owner acquiredAt + countMaintenanceLeases db owner acquiredAt
  ensure (changed = expectedHeartbeats db owner acquiredAt) .stateConflict
  let controls := db.controlLeases.updateWhere
    (fun lease => lease.isOwnedBy owner acquiredAt && lease.leaseState = "active")
    (fun lease => { lease with heartbeatAt := heartbeatAt })
    (fun _ => rfl)
  let maintenance := db.maintenanceLeases.updateWhere
    (fun lease => lease.ownedBy owner acquiredAt && lease.leaseState = "active")
    (fun lease => { lease with heartbeatAt := heartbeatAt })
    (fun _ => rfl)
  return (changed, { db with controlLeases := controls, maintenanceLeases := maintenance })

end Operational

end Satelle.Host
