import Satelle.Host.AdmissionCancellation
import Satelle.Host.TurnQueue

/-! The journal of secret provisionings (`host/storage/provider-secret-journal.rs`) and
the calls that move it, each one transaction. The store is the `Database` with the
journal, the authorized bindings and the `result_json` column. Paths are the texts of
Unix paths; SHA-256 is an argument; the readiness tables that a commit also writes are
left out, and with them only the result of writing them counts. -/
namespace Satelle.Host
open Satelle.Core Lib StorageError

/-! ## Paths -/

/-- What `Path` compares. -/
structure PathName where
  absolute : Bool
  components : List (List Char)
  deriving DecidableEq

namespace PathName

def ofText (text : String) : PathName where
  absolute := text.toList.head? = some '/'
  components := (text.toList.splitOn '/').filter fun part => part ≠ [] && part ≠ ['.']

def parent (path : PathName) : Option PathName :=
  if path.components = [] then none else some { path with components := path.components.dropLast }

def fileName (path : PathName) : Option (List Char) :=
  path.components.getLast?.filter (· ≠ ['.', '.'])

def join (path : PathName) (name : List Char) : PathName :=
  { path with components := path.components ++ [name] }

end PathName

structure OwnerOnlySecretFilePaths where
  destination : PathName
  staging : PathName
  backup : PathName
  deriving DecidableEq

namespace OwnerOnlySecretFilePaths

def isJournalId (journalId : List Char) : Bool :=
  !journalId.isEmpty && journalId.length ≤ 64 &&
    journalId.all fun c => c.isAlphanum || c = '-' || c = '_'

def siblingName (name journalId kind : List Char) : List Char :=
  name ++ ".satelle-".toList ++ journalId ++ kind

def new (destination : PathName) (journalId : List Char) : Option OwnerOnlySecretFilePaths := do
  guard (isJournalId journalId)
  let parent ← destination.parent
  let name ← destination.fileName
  return {
    destination := destination
    staging := parent.join (siblingName name journalId ".staged".toList)
    backup := parent.join (siblingName name journalId ".backup".toList) }

def fromStagedPath (destination staged : PathName) : Option OwnerOnlySecretFilePaths := do
  guard (destination.parent = staged.parent)
  let destinationName ← destination.fileName
  let stagedName ← staged.fileName
  let rest ← (destinationName ++ ".satelle-".toList).isPrefixOf? stagedName
  let journalId ← ".staged".toList.isSuffixOf? rest
  let paths ← new destination journalId
  guard (paths.staging = staged)
  return paths

end OwnerOnlySecretFilePaths

/-! ## Bindings -/

inductive ProviderBindingSource where
  | hostOwned | userConfig
  deriving DecidableEq, Repr

/-- The descriptor of a credential helper is kept as one text. -/
inductive ProviderSecretSource where
  | environment (name : String)
  | file (path : String)
  | credentialStore (service account : String)
  | hostStore (name : String)
  | executableHelper (helper : String)
  deriving DecidableEq, Repr

structure ResolvedProviderBinding where
  requestedModelAlias : String
  requestedProviderAlias : String
  model : String
  modelProvider : String
  endpoint : Option String
  authSource : Option ProviderSecretSource
  source : ProviderBindingSource
  allowProjectSelection : Bool
  experimentalProviderComputerUse : Bool
  bindingDigest : String
  deriving DecidableEq

/-- SHA-256, of what is hashed here: a binding, whose absent endpoint counts as an empty
one, and an operation id. -/
structure Sha256 where
  binding : ResolvedProviderBinding → String
  operation : String → List Char

namespace ResolvedProviderBinding
variable (sha256 : Sha256)

def computeBindingDigest (binding : ResolvedProviderBinding) : String :=
  sha256.binding { binding with
    endpoint := some (binding.endpoint.getD "")
    bindingDigest := "" }

def hasValidBindingDigest (binding : ResolvedProviderBinding) : Bool :=
  binding.bindingDigest = binding.computeBindingDigest sha256

end ResolvedProviderBinding

/-! ## Phases -/

inductive ProviderSecretProvisioningPhase where
  | planned | staged | validated | publishIntent | committed | rollbackPending
  deriving DecidableEq, Repr

def ProviderSecretProvisioningPhase.permits :
    ProviderSecretProvisioningPhase → ProviderSecretProvisioningPhase → Bool
  | .planned, .staged => true
  | .staged, .validated => true
  | .validated, .publishIntent => true
  | .staged, .rollbackPending => true
  | .validated, .rollbackPending => true
  | .publishIntent, .rollbackPending => true
  | _, _ => false

/-! ## Rows -/

/-- A `CHECK` leaves exactly the tokens of the phases, and 0 and 1 for the flags. The JSON
of the secret source is kept as the source. -/
structure ProvisioningJournalRow where
  operationId : String
  hostIdentityRef : String
  desktopBindingRef : String
  providerProbeRef : String
  requestedModelAlias : String
  requestedProviderAlias : String
  model : String
  modelProvider : String
  endpoint : Option String
  authSource : ProviderSecretSource
  experimentalProviderComputerUse : Bool
  allowProjectSelection : Bool
  destinationPath : String
  stagedPath : String
  backupPath : Option String
  destinationExisted : Option Bool
  expectedPreviousBindingDigest : Option String
  candidateBindingDigest : String
  candidateSecretHmac : String
  priorSecretHmac : Option String
  phase : ProviderSecretProvisioningPhase
  createdAt : String
  updatedAt : String
  deriving DecidableEq

/-- `AND` and `OR` of SQL, `none` being `NULL`. -/
def sqlAnd : Option Bool → Option Bool → Option Bool
  | some false, _ => some false
  | _, some false => some false
  | some true, some true => some true
  | _, _ => none

def sqlOr : Option Bool → Option Bool → Option Bool
  | some true, _ => some true
  | _, some true => some true
  | some false, some false => some false
  | _, _ => none

/-- The `CHECK` of the phase and the prior file. -/
def ProvisioningJournalRow.shapeCheck (row : ProvisioningJournalRow) : Option Bool :=
  sqlOr
    (some (row.phase = .planned && row.destinationExisted.isNone && row.backupPath.isNone &&
      row.priorSecretHmac.isNone))
    (sqlAnd (some (row.phase ≠ .planned))
      (sqlOr
        (sqlAnd (row.destinationExisted.map (· = true))
          (some (row.backupPath.isSome && row.priorSecretHmac.isSome)))
        (sqlAnd (row.destinationExisted.map (· = false))
          (some (row.backupPath.isNone && row.priorSecretHmac.isNone)))))

/-- A `CHECK` that is `NULL` does not refuse a row. -/
def ProvisioningJournalRow.allowed (row : ProvisioningJournalRow) : Bool :=
  row.shapeCheck ≠ some false

structure AuthorizedProviderBindingRow where
  desktopBindingRef : String
  providerAlias : String
  modelAlias : String
  model : String
  modelProvider : String
  endpoint : Option String
  authSource : Option ProviderSecretSource
  experimentalProviderComputerUse : Bool
  allowProjectSelection : Bool
  bindingDigest : String
  updatedAt : String
  deriving DecidableEq

def AuthorizedProviderBindingRow.key (row : AuthorizedProviderBindingRow) :
    String × String × String :=
  (row.desktopBindingRef, row.providerAlias, row.modelAlias)

/-- `ProviderSecretProvisioningResult::file` of a validation that resolved. -/
structure ProviderSecretProvisioningResult where
  overwritten : Bool
  deriving DecidableEq, Repr

inductive ProviderSecretProvisioningReplay where
  | completed (result : ProviderSecretProvisioningResult)
  | failed (error : SatelleError)
  deriving DecidableEq, Repr

/-- The column `result_json` is kept beside the rows of the records, by their key. -/
structure ProvisioningStore where
  database : Database
  resultJson : String × String × String → Option ProviderSecretProvisioningReplay
  journals : Table ProvisioningJournalRow (·.operationId)
  authorizedProviderBindings : Table AuthorizedProviderBindingRow AuthorizedProviderBindingRow.key

/-! ## Plans -/

structure ProviderSecretProvisioningPlan where
  hostIdentity : HostIdentityRef
  desktopBinding : DesktopBindingRef
  providerProbeRef : PrivateReference
  binding : ResolvedProviderBinding
  destinationPath : String
  stagedPath : String
  candidateSecretHmac : String

/-- Whether the source is the file at the path. -/
def ProviderSecretSource.isFile (path : String) : ProviderSecretSource → Bool
  | .file other => PathName.ofText other = PathName.ofText path
  | _ => false

section
variable (sha256 : Sha256)

def validateBindingFileDestination (binding : ResolvedProviderBinding) (destination : String) :
    Except StorageError Unit :=
  ensure (binding.source = .userConfig ∧ binding.hasValidBindingDigest sha256 = true ∧
    binding.authSource.any (·.isFile destination) = true) .invalidInput

def validatePlannedPaths (destination staged : PathName) : Except StorageError Unit := do
  ensure (destination.absolute = true ∧ staged.absolute = true ∧ destination ≠ staged ∧
    destination.parent = staged.parent) .invalidInput
  ensure ((OwnerOnlySecretFilePaths.fromStagedPath destination staged).isSome = true) .invalidInput

def validateStagedPaths (destination staged backup : PathName) : Except StorageError Unit := do
  validatePlannedPaths destination staged
  let paths ← orFail .invalidInput (OwnerOnlySecretFilePaths.fromStagedPath destination staged)
  ensure (backup.absolute = true ∧ destination ≠ backup ∧ staged ≠ backup ∧
    destination.parent = backup.parent ∧ backup = paths.backup) .invalidInput

/-- A backup path is checked when there is one. -/
def validateBackup (destination staged : String) : Option String → Except StorageError Unit
  | none => .ok ()
  | some backup => validateStagedPaths (.ofText destination) (.ofText staged) (.ofText backup)

/-- `provider_secret_file_paths`. -/
def providerSecretFilePaths (destination : PathName) (operationId : String) :
    Except StorageError OwnerOnlySecretFilePaths :=
  orFail .invalidInput (OwnerOnlySecretFilePaths.new destination (sha256.operation operationId))

def validateOperationPaths (operationId : String) (destination staged : PathName)
    (backup : Option PathName) : Except StorageError Unit := do
  validatePlannedPaths destination staged
  let paths ← providerSecretFilePaths sha256 destination operationId
  ensure (paths.staging = staged ∧ backup.all (· = paths.backup) = true) .invalidInput

def ProviderSecretProvisioningPlan.new (hostIdentity : HostIdentityRef)
    (desktopBinding : DesktopBindingRef) (providerProbeRef : String)
    (binding : ResolvedProviderBinding) (destinationPath stagedPath candidateSecretHmac : String) :
    Except StorageError ProviderSecretProvisioningPlan := do
  let providerProbeRef ← validatedPrivateReference providerProbeRef
  validateBindingFileDestination sha256 binding destinationPath
  validatePlannedPaths (.ofText destinationPath) (.ofText stagedPath)
  ensure (isRequestDigest candidateSecretHmac = true) .invalidInput
  return {
    hostIdentity := hostIdentity
    desktopBinding := desktopBinding
    providerProbeRef := providerProbeRef
    binding := binding
    destinationPath := destinationPath
    stagedPath := stagedPath
    candidateSecretHmac := candidateSecretHmac }

/-! ## The journal -/

structure ProviderSecretProvisioningJournal where
  operationId : PrivateReference
  hostIdentity : HostIdentityRef
  desktopBinding : DesktopBindingRef
  providerProbeRef : PrivateReference
  binding : ResolvedProviderBinding
  destinationPath : String
  stagedPath : String
  backupPath : Option String
  destinationExisted : Option Bool
  expectedPreviousBindingDigest : Option String
  candidateSecretHmac : String
  priorSecretHmac : Option String
  phase : ProviderSecretProvisioningPhase
  deriving DecidableEq

/-- The binding that the columns of a row describe, with the digest computed anew. -/
def ProvisioningJournalRow.binding (row : ProvisioningJournalRow) : ResolvedProviderBinding :=
  let binding : ResolvedProviderBinding := {
    requestedModelAlias := row.requestedModelAlias
    requestedProviderAlias := row.requestedProviderAlias
    model := row.model
    modelProvider := row.modelProvider
    endpoint := row.endpoint
    authSource := some row.authSource
    source := .userConfig
    allowProjectSelection := row.allowProjectSelection
    experimentalProviderComputerUse := row.experimentalProviderComputerUse
    bindingDigest := "" }
  { binding with bindingDigest := binding.computeBindingDigest sha256 }

/-- Whether the phase has the columns of the prior file that belong to it. -/
def ProvisioningJournalRow.shaped (row : ProvisioningJournalRow) : Bool :=
  match row.phase, row.destinationExisted, row.backupPath, row.priorSecretHmac with
  | .planned, none, none, none => true
  | .planned, _, _, _ => false
  | _, some true, some backup, some _ =>
    (validateStagedPaths (.ofText row.destinationPath) (.ofText row.stagedPath)
      (.ofText backup)).toBool
  | _, some false, none, none => true
  | _, _, _, _ => false

def ProvisioningJournalRow.leasedBy (row : ProvisioningJournalRow) (lease : ControlLeaseRow) : Bool :=
  lease.operationId = row.operationId && lease.hostIdentityRef = row.hostIdentityRef &&
    lease.desktopBindingRef = row.desktopBindingRef && lease.ownerKind = "provider_probe" &&
    lease.providerProbeRef = some row.providerProbeRef && lease.leaseState = "active"

/-- Any refusal of a stored text is a broken store. -/
def orBroken (result : Except ε α) : Except StorageError α :=
  result.mapError fun _ => { kind := .invalidStoredState }

/-- `load_journal`. -/
def loadJournal (store : ProvisioningStore) (operationId : String) :
    Except StorageError ProviderSecretProvisioningJournal := do
  let row ← orFail .invalidStoredState (store.journals.lookup operationId)
  ensure (row.authSource.isFile row.destinationPath = true) .invalidStoredState
  ensure ((row.binding sha256).bindingDigest = row.candidateBindingDigest) .invalidStoredState
  let reference ← orBroken (validatedPrivateReference row.operationId)
  let hostIdentity ← orBroken (Reference.new row.hostIdentityRef)
  let desktopBinding ← orBroken (Reference.new row.desktopBindingRef)
  let providerProbeRef ← orBroken (validatedPrivateReference row.providerProbeRef)
  orBroken (validateOperationPaths sha256 row.operationId (.ofText row.destinationPath)
    (.ofText row.stagedPath) (row.backupPath.map PathName.ofText))
  ensure (row.shaped = true) .invalidStoredState
  ensure (isRequestDigest row.candidateSecretHmac = true ∧
    row.priorSecretHmac.all isRequestDigest = true) .invalidStoredState
  ensure (store.database.controlLeases.rows.countP row.leasedBy = 1) .invalidStoredState
  return {
    operationId := reference
    hostIdentity := hostIdentity
    desktopBinding := desktopBinding
    providerProbeRef := providerProbeRef
    binding := row.binding sha256
    destinationPath := row.destinationPath
    stagedPath := row.stagedPath
    backupPath := row.backupPath
    destinationExisted := row.destinationExisted
    expectedPreviousBindingDigest := row.expectedPreviousBindingDigest
    candidateSecretHmac := row.candidateSecretHmac
    priorSecretHmac := row.priorSecretHmac
    phase := row.phase }

/-- An update of the journal that has to change one row; the `CHECK` of the phase refuses
the statement. -/
def updateJournal (store : ProvisioningStore) (p : ProvisioningJournalRow → Bool)
    (f : ProvisioningJournalRow → ProvisioningJournalRow)
    (keeps : ∀ row, (f row).operationId = row.operationId) :
    Except StorageError ProvisioningStore := do
  ensure ((store.journals.rows.filter p).all (fun row => (f row).allowed) = true) .operationFailed
  let journals ← orFail .stateConflict (store.journals.updateOne p f keeps)
  return { store with journals := journals }

variable (codec : TimeCodec)

def updatePhase (store : ProvisioningStore) (operationId : String)
    (expected next : ProviderSecretProvisioningPhase) (time : OffsetDateTime) :
    Except StorageError ProvisioningStore := do
  let updatedAt ← formatTime codec time
  updateJournal store
    (fun row => row.operationId = operationId && row.phase = expected)
    (fun row => { row with phase := next, updatedAt := updatedAt })
    (fun _ => rfl)

/-! ## Transactions -/

def pendingOutcome : String := "v1.provider_secret_provisioning.pending"
def completedOutcome : String := "v1.provider_secret_provisioning.completed"
def failedOutcome : String := "v1.provider_secret_provisioning.failed"

inductive BeginProviderSecretProvisioning where
  | claimed (journal : ProviderSecretProvisioningJournal)
  | resume
  | replay (replay : ProviderSecretProvisioningReplay)
  deriving DecidableEq

/-- What a record that the request matches is answered with. -/
def answerRecord (store : ProvisioningStore) (record : IdempotencyRow) :
    Except StorageError BeginProviderSecretProvisioning :=
  match store.resultJson record.key with
  | none =>
    if record.status = "in_progress" ∧ record.durableOutcome = pendingOutcome then .ok .resume
    else fail .invalidStoredState
  | some replay =>
    if record.status = "terminal" ∧
        (record.durableOutcome = completedOutcome ∨ record.durableOutcome = failedOutcome) then
      .ok (.replay replay)
    else fail .invalidStoredState

/-- `insert_idempotency` of a record without Session and Turn. -/
def insertProvisioningRecord (db : Database) (input : IdempotencyInput) :
    Except StorageError Database := do
  let createdAt ← formatTime codec input.createdAt
  let expiresAt ← formatTime codec input.expiresAt
  ensure (input.hmacKeyVersion ∈ db.hmacKeyVersions) .operationFailed
  ensure (db.idempotencyRecords.rows.all fun other =>
    other.operationId ≠ input.operationId.text ||
      other.operation ≠ idempotentOperationToken input.operation) .operationFailed
  let records ← orFail .operationFailed (db.idempotencyRecords.insert {
    principalRef := input.principalRef.text
    operation := idempotentOperationToken input.operation
    idempotencyKey := input.key.text
    operationId := input.operationId.text
    requestDigest := input.requestDigest
    digestSchemaVersion := input.digestSchemaVersion
    hmacKeyVersion := input.hmacKeyVersion
    status := "in_progress"
    durableOutcome := pendingOutcome
    sessionId := none
    turnId := none
    resultSessionStateRevision := none
    resultSessionUpdatedAt := none
    createdAt := createdAt
    completedAt := none
    expiresAt := expiresAt })
  return { db with idempotencyRecords := records }

/-- `insert_provider_probe_lease`. -/
def insertProviderProbeLease (db : Database) (plan : ProviderSecretProvisioningPlan)
    (owner : LeaseOwner) : Except StorageError Database := do
  let acquiredAt ← formatTime codec owner.acquiredAt
  ensure (db.controlLeases.rows.all fun other =>
    other.ownerKind ≠ "provider_probe" ||
      other.providerProbeRef ≠ some plan.providerProbeRef.text) .leaseConflict
  let controlLeases ← orFail .leaseConflict (db.controlLeases.insert {
    hostIdentityRef := plan.hostIdentity.text
    desktopBindingRef := plan.desktopBinding.text
    operationId := owner.operationId.text
    ownerProcessId := owner.processId
    ownerProcessStartRef := owner.processStartRef.text
    ownerBootIdentityRef := owner.bootIdentityRef.text
    acquiredAt := acquiredAt
    heartbeatAt := acquiredAt
    leaseState := "active"
    ownerKind := "provider_probe"
    sessionId := none
    turnId := none
    providerProbeRef := some plan.providerProbeRef.text })
  return { db with controlLeases := controlLeases }

/-- `length(trim(value)) > 0`. -/
def isFilled (value : String) : Bool := value.toList.any (· ≠ ' ')

/-- `insert_journal`, with the `UNIQUE` columns and the `CHECK`s that the plan does not
settle. -/
def insertJournal (store : ProvisioningStore) (operationId : String)
    (plan : ProviderSecretProvisioningPlan) (expectedPreviousBindingDigest : Option String)
    (time : OffsetDateTime) : Except StorageError ProvisioningStore := do
  let authSource ← orFail .invalidInput plan.binding.authSource
  let createdAt ← formatTime codec time
  ensure (store.journals.rows.all fun other =>
    other.providerProbeRef ≠ plan.providerProbeRef.text &&
      other.destinationPath ≠ plan.destinationPath && other.stagedPath ≠ plan.stagedPath)
    .operationFailed
  ensure (isFilled plan.binding.requestedModelAlias = true ∧
    isFilled plan.binding.requestedProviderAlias = true ∧ isFilled plan.binding.model = true ∧
    isFilled plan.binding.modelProvider = true ∧
    isRequestDigest plan.binding.bindingDigest = true) .operationFailed
  let journals ← orFail .operationFailed (store.journals.insert {
    operationId := operationId
    hostIdentityRef := plan.hostIdentity.text
    desktopBindingRef := plan.desktopBinding.text
    providerProbeRef := plan.providerProbeRef.text
    requestedModelAlias := plan.binding.requestedModelAlias
    requestedProviderAlias := plan.binding.requestedProviderAlias
    model := plan.binding.model
    modelProvider := plan.binding.modelProvider
    endpoint := plan.binding.endpoint
    authSource := authSource
    experimentalProviderComputerUse := plan.binding.experimentalProviderComputerUse
    allowProjectSelection := plan.binding.allowProjectSelection
    destinationPath := plan.destinationPath
    stagedPath := plan.stagedPath
    backupPath := none
    destinationExisted := none
    expectedPreviousBindingDigest := expectedPreviousBindingDigest
    candidateBindingDigest := plan.binding.bindingDigest
    candidateSecretHmac := plan.candidateSecretHmac
    priorSecretHmac := none
    phase := .planned
    createdAt := createdAt
    updatedAt := createdAt })
  return { store with journals := journals }

/-- `provider_binding_digest_in_connection`. -/
def providerBindingDigest (store : ProvisioningStore) (desktopBinding : DesktopBindingRef)
    (modelAlias providerAlias : String) : Option String :=
  (store.authorizedProviderBindings.lookup (desktopBinding.text, providerAlias, modelAlias)).map
    (·.bindingDigest)

/-- `now` is the clock reading of the lease check. -/
def beginProviderSecretProvisioning (store : ProvisioningStore) (input : IdempotencyInput)
    (keyDesktopBinding : DesktopBindingRef) (owner : LeaseOwner)
    (plan : ProviderSecretProvisioningPlan) (now : OffsetDateTime) :
    Except StorageError (BeginProviderSecretProvisioning × ProvisioningStore) := do
  requireOperation input .providerSecretProvisioning
  let identity ← hostIdentity store.database
  ensure (input.operationId = owner.operationId ∧ plan.hostIdentity = identity ∧
    plan.desktopBinding = keyDesktopBinding) .invalidInput
  match ← matchingIdempotency store.database input with
  | some record =>
    let answer ← answerRecord store record
    return (answer, store)
  | none =>
    ensureControlLeaseAvailable codec store.database plan.hostIdentity plan.desktopBinding now
    let db ← insertProvisioningRecord codec store.database input
    let db ← insertProviderProbeLease codec db plan owner
    validateOperationPaths sha256 input.operationId.text (.ofText plan.destinationPath)
      (.ofText plan.stagedPath) none
    let digest := providerBindingDigest store plan.desktopBinding plan.binding.requestedModelAlias
      plan.binding.requestedProviderAlias
    let after ← insertJournal codec { store with database := db } input.operationId.text plan digest
      input.createdAt
    let journal ← loadJournal sha256 after input.operationId.text
    return (.claimed journal, after)

def transitionProviderSecretProvisioning (store : ProvisioningStore) (operationId : String)
    (expected next : ProviderSecretProvisioningPhase) (time : OffsetDateTime) :
    Except StorageError ProvisioningStore := do
  ensure (expected.permits next = true) .invalidInput
  updatePhase codec store operationId expected next time

def recordStagedProviderSecret (store : ProvisioningStore) (operationId : String)
    (destinationExisted : Bool) (backupPath priorSecretHmac : Option String)
    (time : OffsetDateTime) : Except StorageError ProvisioningStore := do
  ensure (priorSecretHmac.all isRequestDigest = true) .invalidInput
  let journal ← loadJournal sha256 store operationId
  ensure (journal.phase = .planned ∧ destinationExisted = backupPath.isSome ∧
    destinationExisted = priorSecretHmac.isSome) .invalidInput
  validateBackup journal.destinationPath journal.stagedPath backupPath
  let updatedAt ← formatTime codec time
  ensure (store.journals.rows.all fun other => other.operationId = operationId ||
    backupPath.isNone || other.backupPath ≠ backupPath) .operationFailed
  updateJournal store
    (fun row => row.operationId = operationId && row.phase = .planned &&
      row.destinationExisted.isNone && row.backupPath.isNone && row.priorSecretHmac.isNone)
    (fun row => { row with
      destinationExisted := some destinationExisted
      backupPath := backupPath
      priorSecretHmac := priorSecretHmac
      phase := .staged
      updatedAt := updatedAt })
    (fun _ => rfl)

def markProviderSecretProvisioningRollbackPending (store : ProvisioningStore) (operationId : String)
    (expected : ProviderSecretProvisioningPhase) (time : OffsetDateTime) :
    Except StorageError ProvisioningStore := do
  ensure (expected.permits .rollbackPending = true) .invalidInput
  updatePhase codec store operationId expected .rollbackPending time

/-- The row that an authorization writes. -/
def authorizedRow (desktopBinding : DesktopBindingRef) (binding : ResolvedProviderBinding)
    (updatedAt : String) : AuthorizedProviderBindingRow where
  desktopBindingRef := desktopBinding.text
  providerAlias := binding.requestedProviderAlias
  modelAlias := binding.requestedModelAlias
  model := binding.model
  modelProvider := binding.modelProvider
  endpoint := binding.endpoint
  authSource := binding.authSource
  experimentalProviderComputerUse := binding.experimentalProviderComputerUse
  allowProjectSelection := binding.allowProjectSelection
  bindingDigest := binding.bindingDigest
  updatedAt := updatedAt

/-- `INSERT … ON CONFLICT … DO UPDATE`. -/
def upsertBinding (table : Table AuthorizedProviderBindingRow AuthorizedProviderBindingRow.key)
    (row : AuthorizedProviderBindingRow) :
    Table AuthorizedProviderBindingRow AuthorizedProviderBindingRow.key :=
  (table.insert row).getD (table.updateWhere (fun other => other.key = row.key)
    (fun other => { row with
      desktopBindingRef := other.desktopBindingRef
      providerAlias := other.providerAlias
      modelAlias := other.modelAlias })
    (fun _ => rfl))

/-- `authorize_provider_binding_in_connection`. -/
def authorizeProviderBinding (store : ProvisioningStore) (desktopBinding : DesktopBindingRef)
    (binding : ResolvedProviderBinding) (time : OffsetDateTime) :
    Except StorageError ProvisioningStore := do
  ensure (binding.source = .userConfig ∧ binding.hasValidBindingDigest sha256 = true) .invalidInput
  let updatedAt ← formatTime codec time
  ensure (isFilled desktopBinding.text = true ∧ isFilled binding.requestedProviderAlias = true ∧
    isFilled binding.requestedModelAlias = true ∧ isFilled binding.model = true ∧
    isFilled binding.modelProvider = true ∧ isRequestDigest binding.bindingDigest = true)
    .operationFailed
  return { store with
    authorizedProviderBindings := upsertBinding store.authorizedProviderBindings
      (authorizedRow desktopBinding binding updatedAt) }

/-- `evidence` is the result of writing the readiness tables, `provider` whether there is
evidence of a provider smoke. -/
def commitProviderSecretProvisioning (store : ProvisioningStore) (operationId : String)
    (binding : ResolvedProviderBinding) (keyDesktopBinding : DesktopBindingRef) (provider : Bool)
    (evidence : Except StorageError Unit) (time : OffsetDateTime) :
    Except StorageError ProvisioningStore := do
  let journal ← loadJournal sha256 store operationId
  ensure (journal.phase = .publishIntent ∧
    journal.binding.bindingDigest = binding.bindingDigest ∧
    journal.desktopBinding = keyDesktopBinding ∧
    binding.experimentalProviderComputerUse = provider) .stateConflict
  ensure (store.database.controlLeases.rows.any (fun lease => lease.operationId = operationId &&
    lease.ownerKind = "provider_probe" &&
    lease.providerProbeRef = some journal.providerProbeRef.text &&
    lease.leaseState = "active") = true) .stateConflict
  ensure (providerBindingDigest store journal.desktopBinding binding.requestedModelAlias
    binding.requestedProviderAlias = journal.expectedPreviousBindingDigest) .stateConflict
  let store ← authorizeProviderBinding sha256 codec store journal.desktopBinding binding time
  evidence
  updatePhase codec store operationId .publishIntent .committed time

/-- The record of a provisioning that has not ended. -/
def isPendingProvisioning (operationId : String) (record : IdempotencyRow) : Bool :=
  record.operationId = operationId && record.operation = "provider_secret_provisioning" &&
    record.status = "in_progress" && record.durableOutcome = pendingOutcome

def terminalize (store : ProvisioningStore) (operationId durableOutcome : String)
    (replay : ProviderSecretProvisioningReplay) (providerProbeRef : String)
    (time : OffsetDateTime) : Except StorageError ProvisioningStore := do
  let completedAt ← formatTime codec time
  let records ← orFail .stateConflict (store.database.idempotencyRecords.updateOne
    (isPendingProvisioning operationId)
    (fun record => { record with
      status := "terminal"
      durableOutcome := durableOutcome
      completedAt := some completedAt })
    (fun _ => rfl))
  let controlLeases ← orFail .stateConflict (store.database.controlLeases.deleteOne fun lease =>
    lease.operationId = operationId && lease.ownerKind = "provider_probe" &&
      lease.providerProbeRef = some providerProbeRef)
  let journals ← orFail .stateConflict (store.journals.deleteOne (·.operationId = operationId))
  return { store with
    database := { store.database with
      idempotencyRecords := records
      controlLeases := controlLeases }
    resultJson := fun key =>
      if store.database.idempotencyRecords.rows.any
          (fun record => isPendingProvisioning operationId record && record.key = key) then
        some replay
      else store.resultJson key
    journals := journals }

def finishProviderSecretProvisioningSuccess (store : ProvisioningStore) (operationId : String)
    (time : OffsetDateTime) :
    Except StorageError (ProviderSecretProvisioningReplay × ProvisioningStore) := do
  let journal ← loadJournal sha256 store operationId
  ensure (journal.phase = .committed) .stateConflict
  let replay := .completed ⟨journal.destinationExisted.getD false⟩
  let after ← terminalize codec store operationId completedOutcome replay
    journal.providerProbeRef.text time
  return (replay, after)

def finishProviderSecretProvisioningFailure (store : ProvisioningStore) (operationId : String)
    (error : SatelleError) (time : OffsetDateTime) :
    Except StorageError (ProviderSecretProvisioningReplay × ProvisioningStore) := do
  let journal ← loadJournal sha256 store operationId
  ensure (journal.phase = .planned ∨ journal.phase = .rollbackPending) .stateConflict
  let replay := .failed ⟨error.code, "provider secret provisioning failed"⟩
  let after ← terminalize codec store operationId failedOutcome replay
    journal.providerProbeRef.text time
  return (replay, after)

inductive ProviderSecretProvisioningPreflight where
  | absent
  | inProgress
  | replay (replay : ProviderSecretProvisioningReplay)
  deriving DecidableEq

/-- `provider_secret_provisioning_replay`. -/
def providerSecretProvisioningReplay (store : ProvisioningStore) (input : IdempotencyInput) :
    Except StorageError ProviderSecretProvisioningPreflight := do
  requireOperation input .providerSecretProvisioning
  match ← matchingIdempotency store.database input with
  | none => return .absent
  | some record =>
    match ← answerRecord store record with
    | .replay replay => return .replay replay
    | .resume | .claimed _ => return .inProgress

/-! ## Calls -/

inductive ProvisioningCall where
  | begin (input : IdempotencyInput) (keyDesktopBinding : DesktopBindingRef) (owner : LeaseOwner)
      (hostIdentity : HostIdentityRef) (desktopBinding : DesktopBindingRef)
      (providerProbeRef : String) (binding : ResolvedProviderBinding)
      (destinationPath stagedPath candidateSecretHmac : String) (now : OffsetDateTime)
  | recordStaged (operationId : String) (destinationExisted : Bool)
      (backupPath priorSecretHmac : Option String) (time : OffsetDateTime)
  | transition (operationId : String) (expected next : ProviderSecretProvisioningPhase)
      (time : OffsetDateTime)
  | markRollbackPending (operationId : String) (expected : ProviderSecretProvisioningPhase)
      (time : OffsetDateTime)
  | commit (operationId : String) (binding : ResolvedProviderBinding)
      (keyDesktopBinding : DesktopBindingRef) (provider : Bool) (evidence : Except StorageError Unit)
      (time : OffsetDateTime)
  | finishSuccess (operationId : String) (time : OffsetDateTime)
  | finishFailure (operationId : String) (error : SatelleError) (time : OffsetDateTime)

inductive ProvisioningReply where
  | begun (outcome : BeginProviderSecretProvisioning)
  | done
  | finished (replay : ProviderSecretProvisioningReplay)
  deriving DecidableEq

def serveProvisioning (store : ProvisioningStore) :
    ProvisioningCall → Except StorageError ProvisioningReply × ProvisioningStore
  | .begin input keyDesktopBinding owner hostIdentity desktopBinding probe binding destination staged
      hmac now =>
    transact store .begun (do
      let plan ← ProviderSecretProvisioningPlan.new sha256 hostIdentity desktopBinding probe binding
        destination staged hmac
      beginProviderSecretProvisioning sha256 codec store input keyDesktopBinding owner plan now)
  | .recordStaged operationId existed backup prior time =>
    transact store (fun () => .done)
      ((recordStagedProviderSecret sha256 codec store operationId existed backup prior time).map
        ((), ·))
  | .transition operationId expected next time =>
    transact store (fun () => .done)
      ((transitionProviderSecretProvisioning codec store operationId expected next time).map ((), ·))
  | .markRollbackPending operationId expected time =>
    transact store (fun () => .done)
      ((markProviderSecretProvisioningRollbackPending codec store operationId expected time).map
        ((), ·))
  | .commit operationId binding keyDesktopBinding provider evidence time =>
    transact store (fun () => .done)
      ((commitProviderSecretProvisioning sha256 codec store operationId binding keyDesktopBinding
        provider evidence time).map ((), ·))
  | .finishSuccess operationId time =>
    transact store .finished
      (finishProviderSecretProvisioningSuccess sha256 codec store operationId time)
  | .finishFailure operationId error time =>
    transact store .finished
      (finishProviderSecretProvisioningFailure sha256 codec store operationId error time)

end

end Satelle.Host
