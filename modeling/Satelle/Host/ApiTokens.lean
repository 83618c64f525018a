import Satelle.Host.Sql

/-! The API tokens of a Host (`host/storage/auth.rs`, `host/api-auth.rs`). A bearer
token is known by its id and its verifier: the secret, and the hash that makes the
verifier from it, are left out. The JSON of a row's desktop bindings and of a stored
outcome is kept as the value it encodes. -/
namespace Satelle.Host
open Satelle.Core Lib StorageError

/-! ## Tokens -/

def maxTokenIdBytes : Nat := 128

/-- `validate_token_id`. -/
def isTokenId (value : String) : Bool :=
  !value.isEmpty && value.utf8ByteSize ≤ maxTokenIdBytes &&
    value.toList.all fun c => c.isAlphanum || c = '-' || c = '_'

def maxSafeReferenceBytes : Nat := 128

/-- `validate_safe_reference`. -/
def isSafeReference (value : String) : Bool :=
  !value.isEmpty && value.utf8ByteSize ≤ maxSafeReferenceBytes && value.toList.all isReferenceChar

def secretBytes : Nat := 32

structure ApiTokenVerifier where
  bytes : List UInt8
  width : bytes.length = secretBytes
  deriving DecidableEq

def ApiTokenVerifier.fromStored (bytes : List UInt8) : Option ApiTokenVerifier :=
  if width : bytes.length = secretBytes then some ⟨bytes, width⟩ else none

structure ApiBearerToken where
  tokenId : String
  verifier : ApiTokenVerifier
  valid : isTokenId tokenId = true
  deriving DecidableEq

/-- `ApiScopes`: a set of the four scopes that is not empty. -/
structure ApiScopes where
  bits : Nat
  valid : 0 < bits ∧ bits < 16
  deriving DecidableEq

def ApiScopes.admin : ApiScopes := ⟨4, by decide⟩

def ApiScopes.fromBits (bits : Int) : Option ApiScopes :=
  if valid : 0 < bits.toNat ∧ bits.toNat < 16 then some ⟨bits.toNat, valid⟩ else none

/-- A `BTreeSet<String>`. -/
structure BindingSet where
  values : List String
  ascending : values.Pairwise (· < ·)
  deriving DecidableEq

private theorem insertionSort_ascending (values : List String) :
    (values.dedup.insertionSort (· ≤ ·)).Pairwise (· < ·) := by
  have distinct : (values.dedup.insertionSort (· ≤ ·)).Nodup :=
    (List.perm_insertionSort (· ≤ ·) values.dedup).nodup_iff.mpr (List.nodup_dedup values)
  have ordered := List.pairwise_insertionSort (· ≤ ·) values.dedup
  exact (ordered.and distinct).imp fun pair => lt_of_le_of_ne pair.1 pair.2

def BindingSet.collect (values : List String) : BindingSet where
  values := values.dedup.insertionSort (· ≤ ·)
  ascending := insertionSort_ascending values

/-- Whether every text is a desktop binding. -/
def BindingSet.valid (bindings : BindingSet) : Bool :=
  bindings.values.all fun value =>
    (Reference.new value : Except ReferenceError DesktopBindingRef).toBool

inductive ApiTokenState where
  | active | setupPending | setupActive
  deriving DecidableEq, Repr

namespace ApiTokenState

def asStr : ApiTokenState → String
  | .active => "active"
  | .setupPending => "setup_pending"
  | .setupActive => "setup_active"

def parse : String → Except StorageError ApiTokenState
  | "active" => .ok .active
  | "setup_pending" => .ok .setupPending
  | "setup_active" => .ok .setupActive
  | _ => fail .invalidStoredState

def authenticates : ApiTokenState → Bool
  | .active | .setupActive => true
  | .setupPending => false

end ApiTokenState

structure ApiPrincipal where
  tokenId : String
  principalRef : String
  credentialRevision : Nat
  scopes : ApiScopes
  desktopBindings : BindingSet
  expiresAt : Option OffsetDateTime
  durableSetupPending : Bool
  durableSetupActive : Bool
  deriving DecidableEq

structure ApiTokenMetadata where
  tokenId : String
  principalRef : String
  credentialRevision : Nat
  scopes : ApiScopes
  desktopBindings : List String
  expiresAt : Option OffsetDateTime
  revokedAt : Option OffsetDateTime
  deriving DecidableEq

inductive ApiTokenRejection where
  | notFound | stateConflict | invalidExpiry
  deriving DecidableEq, Repr

inductive ApiTokenMutationOutcome where
  | completed (metadata : ApiTokenMetadata)
  | rejected (rejection : ApiTokenRejection)
  deriving DecidableEq

inductive ApiTokenMutation where
  | issue (scopes : ApiScopes) (desktopBindings : BindingSet) (expiresAt : Option OffsetDateTime)
  | rotate (tokenId : String) (expectedCredentialRevision : Nat)
  | revoke (tokenId : String) (expectedCredentialRevision : Nat)

def ApiTokenMutation.operation : ApiTokenMutation → IdempotentOperation
  | .issue _ _ _ => .apiTokenIssue
  | .rotate _ _ => .apiTokenRotate
  | .revoke _ _ => .apiTokenRevoke

/-! ## Rows -/

structure ApiTokenRow where
  tokenId : String
  principalRef : String
  credentialRevision : Int
  verifier : List UInt8
  scopes : Int
  createdAt : String
  credentialUpdatedAt : String
  expiresAt : Option String
  revokedAt : Option String
  tokenState : String
  desktopBindings : List String
  deriving DecidableEq

/-- A record of a token mutation. -/
structure TokenRecordRow extends IdempotencyRow where
  resultJson : Option ApiTokenMutationOutcome

def TokenRecordRow.recordKey (record : TokenRecordRow) : String × String × String :=
  (record.principalRef, record.operation, record.idempotencyKey)

structure TokenStore where
  apiTokens : Table ApiTokenRow (·.tokenId)
  records : Table TokenRecordRow TokenRecordRow.recordKey
  hmacKeyVersions : List Nat

structure StoredToken where
  tokenId : String
  principalRef : String
  credentialRevision : Nat
  verifier : ApiTokenVerifier
  scopes : ApiScopes
  desktopBindings : BindingSet
  createdAt : OffsetDateTime
  expiresAt : Option OffsetDateTime
  revokedAt : Option OffsetDateTime
  tokenState : ApiTokenState
  deriving DecidableEq

namespace StoredToken

def metadata (token : StoredToken) : ApiTokenMetadata where
  tokenId := token.tokenId
  principalRef := token.principalRef
  credentialRevision := token.credentialRevision
  scopes := token.scopes
  desktopBindings := token.desktopBindings.values
  expiresAt := token.expiresAt
  revokedAt := token.revokedAt

def principal (token : StoredToken) : ApiPrincipal where
  tokenId := token.tokenId
  principalRef := token.principalRef
  credentialRevision := token.credentialRevision
  scopes := token.scopes
  desktopBindings := token.desktopBindings
  expiresAt := token.expiresAt
  durableSetupPending := token.tokenState = .setupPending
  durableSetupActive := token.tokenState = .setupActive

def expired (token : StoredToken) (time : OffsetDateTime) : Bool :=
  token.expiresAt.any (· ≤ time)

end StoredToken

/-- The largest `credential_revision` that a column holds. -/
def maxCredentialRevision : Nat := 2 ^ 63 - 1

section
variable (codec : TimeCodec)

/-- `StoredTokenRow::validate`. -/
def ApiTokenRow.validate (row : ApiTokenRow) : Except StorageError StoredToken := do
  ensure (isTokenId row.tokenId = true) .invalidStoredState
  ensure (isSafeReference row.principalRef = true) .invalidStoredState
  ensure (0 < row.credentialRevision) .invalidStoredState
  let verifier ← orFail .invalidStoredState (ApiTokenVerifier.fromStored row.verifier)
  let scopes ← orFail .invalidStoredState (ApiScopes.fromBits row.scopes)
  let createdAt ← parseTime codec row.createdAt
  let credentialUpdatedAt ← parseTime codec row.credentialUpdatedAt
  let expiresAt ← row.expiresAt.mapM (parseTime codec)
  let revokedAt ← row.revokedAt.mapM (parseTime codec)
  let tokenState ← ApiTokenState.parse row.tokenState
  let desktopBindings := BindingSet.collect row.desktopBindings
  ensure (¬(credentialUpdatedAt < createdAt ∨ expiresAt.any (· ≤ createdAt) ∨
    revokedAt.any (· < createdAt) ∨ tokenState = .setupPending ∧ expiresAt = none ∨
    tokenState = .setupActive ∧ expiresAt ≠ none ∨
    desktopBindings.values.length ≠ row.desktopBindings.length ∨ desktopBindings.valid = false))
    .invalidStoredState
  return {
    tokenId := row.tokenId
    principalRef := row.principalRef
    credentialRevision := row.credentialRevision.toNat
    verifier := verifier
    scopes := scopes
    desktopBindings := desktopBindings
    createdAt := createdAt
    expiresAt := expiresAt
    revokedAt := revokedAt
    tokenState := tokenState }

/-- `load_token` and `validate`. -/
def loadToken (store : TokenStore) (tokenId : String) : Except StorageError (Option StoredToken) :=
  match store.apiTokens.lookup tokenId with
  | none => .ok none
  | some row => (row.validate codec).map some

/-- The part of `validate_sensitive_state` that reads the tokens. -/
def validateSensitiveState (store : TokenStore) : Except StorageError Unit :=
  store.apiTokens.rows.forM fun row => do
    let _ ← row.validate codec

/-! ## Registration -/

structure ApiTokenRegistration where
  tokenId : String
  principalRef : String
  credentialRevision : Nat
  verifier : ApiTokenVerifier
  scopes : ApiScopes
  desktopBindings : BindingSet
  expiresAt : Option OffsetDateTime
  createdAt : OffsetDateTime
  tokenState : ApiTokenState

def ApiTokenRegistration.new (token : ApiBearerToken) (principalRef : String)
    (credentialRevision : Nat) (scopes : ApiScopes) (desktopBindings : BindingSet)
    (expiresAt : Option OffsetDateTime) (createdAt : OffsetDateTime) :
    Except StorageError ApiTokenRegistration := do
  ensure (isSafeReference principalRef = true) .invalidInput
  ensure (¬(credentialRevision = 0 ∨ expiresAt.any (· ≤ createdAt))) .invalidInput
  ensure (desktopBindings.valid = true) .invalidInput
  return {
    tokenId := token.tokenId
    principalRef := principalRef
    credentialRevision := credentialRevision
    verifier := token.verifier
    scopes := scopes
    desktopBindings := desktopBindings
    expiresAt := expiresAt
    createdAt := createdAt
    tokenState := .active }

def ApiTokenRegistration.newSetupPending (token : ApiBearerToken) (principalRef : String)
    (credentialRevision : Nat) (scopes : ApiScopes) (desktopBindings : BindingSet)
    (pendingUntil createdAt : OffsetDateTime) : Except StorageError ApiTokenRegistration := do
  let registration ← ApiTokenRegistration.new token principalRef credentialRevision scopes
    desktopBindings (some pendingUntil) createdAt
  return { registration with tokenState := .setupPending }

/-- The `UNIQUE` verifiers. -/
def verifierFree (store : TokenStore) (tokenId : String) (verifier : ApiTokenVerifier) : Bool :=
  store.apiTokens.rows.all fun other => other.tokenId = tokenId || other.verifier ≠ verifier.bytes

def registerApiTokenInConnection (store : TokenStore) (registration : ApiTokenRegistration) :
    Except StorageError TokenStore := do
  match ← loadToken codec store registration.tokenId with
  | some stored =>
    ensure (stored.principalRef = registration.principalRef ∧
      stored.credentialRevision = registration.credentialRevision ∧
      stored.verifier = registration.verifier ∧ stored.scopes = registration.scopes ∧
      stored.desktopBindings = registration.desktopBindings ∧
      stored.expiresAt = registration.expiresAt ∧ stored.tokenState = registration.tokenState ∧
      stored.revokedAt = none) .idempotencyConflict
    return store
  | none =>
    let createdAt ← formatTime codec registration.createdAt
    ensure (registration.credentialRevision ≤ maxCredentialRevision) .invalidInput
    let expiresAt ← registration.expiresAt.mapM (formatTime codec)
    ensure (verifierFree store registration.tokenId registration.verifier = true) .operationFailed
    let apiTokens ← orFail .operationFailed (store.apiTokens.insert {
      tokenId := registration.tokenId
      principalRef := registration.principalRef
      credentialRevision := registration.credentialRevision
      verifier := registration.verifier.bytes
      scopes := registration.scopes.bits
      createdAt := createdAt
      credentialUpdatedAt := createdAt
      expiresAt := expiresAt
      revokedAt := none
      tokenState := registration.tokenState.asStr
      desktopBindings := registration.desktopBindings.values })
    return { store with apiTokens := apiTokens }

/-- `reconcile_local_controller_token`. -/
def reconcileLocalControllerToken (store : TokenStore) (token : ApiBearerToken)
    (desktopBindings : BindingSet) (time : OffsetDateTime) : Except StorageError TokenStore := do
  let registration ← ApiTokenRegistration.new token "local-controller" 1 .admin desktopBindings none
    time
  match ← loadToken codec store token.tokenId with
  | some stored =>
    let store ← registerApiTokenInConnection codec store { registration with
      desktopBindings := stored.desktopBindings
      credentialRevision := stored.credentialRevision }
    if stored.desktopBindings ≠ desktopBindings then
      ensure (stored.credentialRevision + 1 ≤ maxCredentialRevision) .invalidStoredState
      let updatedAt ← formatTime codec time
      let apiTokens := store.apiTokens.updateWhere
        (fun row => row.tokenId = token.tokenId)
        (fun row => { row with
          desktopBindings := desktopBindings.values
          credentialRevision := (stored.credentialRevision + 1 : Nat)
          credentialUpdatedAt := updatedAt })
        (fun _ => rfl)
      return { store with apiTokens := apiTokens }
    else return store
  | none => registerApiTokenInConnection codec store registration

/-! ## Authentication -/

def authenticateApiTokenForState (store : TokenStore) (tokenId : String)
    (suppliedVerifier : ApiTokenVerifier) (time : OffsetDateTime)
    (stateAuthenticates : ApiTokenState → Bool) : Except StorageError (Option ApiPrincipal) := do
  ensure (isTokenId tokenId = true) .invalidInput
  match ← loadToken codec store tokenId with
  | none => return none
  | some stored =>
    if stored.verifier ≠ suppliedVerifier ∨ stored.revokedAt ≠ none ∨
        stateAuthenticates stored.tokenState = false ∨ stored.expired time = true then
      return none
    else return some stored.principal

def authenticateApiToken (store : TokenStore) (tokenId : String)
    (suppliedVerifier : ApiTokenVerifier) (time : OffsetDateTime) :
    Except StorageError (Option ApiPrincipal) :=
  authenticateApiTokenForState codec store tokenId suppliedVerifier time ApiTokenState.authenticates

def authenticatePendingSetupApiToken (store : TokenStore) (tokenId : String)
    (suppliedVerifier : ApiTokenVerifier) (time : OffsetDateTime) :
    Except StorageError (Option ApiPrincipal) :=
  authenticateApiTokenForState codec store tokenId suppliedVerifier time (· = .setupPending)

def apiPrincipalIsActive (store : TokenStore) (principal : ApiPrincipal) (time : OffsetDateTime) :
    Except StorageError Bool := do
  match ← loadToken codec store principal.tokenId with
  | none => return false
  | some stored =>
    return stored.revokedAt = none ∧ stored.tokenState.authenticates = true ∧
      stored.expired time = false ∧ stored.tokenId = principal.tokenId ∧
      stored.principalRef = principal.principalRef ∧
      stored.credentialRevision = principal.credentialRevision ∧
      stored.scopes = principal.scopes ∧ stored.desktopBindings = principal.desktopBindings ∧
      stored.expiresAt = principal.expiresAt

/-! ## Rotation and revocation -/

/-- `replace_api_token_credential`: the next revision. -/
def replaceApiTokenCredential (store : TokenStore) (verifier : ApiTokenVerifier)
    (stored : StoredToken) (time : OffsetDateTime) : Except StorageError (Nat × TokenStore) := do
  ensure (stored.verifier ≠ verifier) .invalidInput
  let nextRevision := stored.credentialRevision + 1
  ensure (nextRevision ≤ maxCredentialRevision) .invalidStoredState
  let updatedAt ← formatTime codec time
  ensure (verifierFree store stored.tokenId verifier = true) .operationFailed
  let apiTokens ← orFail .stateConflict (store.apiTokens.updateOne
    (fun row => row.tokenId = stored.tokenId && row.credentialRevision = stored.credentialRevision &&
      row.revokedAt.isNone)
    (fun row => { row with
      credentialRevision := nextRevision
      verifier := verifier.bytes
      credentialUpdatedAt := updatedAt })
    (fun _ => rfl))
  return (nextRevision, { store with apiTokens := apiTokens })

def rotateApiToken (store : TokenStore) (replacement : ApiBearerToken)
    (expectedCredentialRevision : Nat) (time : OffsetDateTime) :
    Except StorageError (ApiPrincipal × TokenStore) := do
  ensure (expectedCredentialRevision ≠ 0) .invalidInput
  let found ← loadToken codec store replacement.tokenId
  let stored ← orFail .invalidInput found
  ensure (¬(stored.expired time = true ∨ stored.revokedAt ≠ none ∨
    stored.tokenState.authenticates = false ∨
    stored.credentialRevision ≠ expectedCredentialRevision)) .stateConflict
  let (revision, store) ← replaceApiTokenCredential codec store replacement.verifier stored time
  return ({ stored with credentialRevision := revision }.principal, store)

def activateApiToken (store : TokenStore) (tokenId : String) (time : OffsetDateTime) :
    Except StorageError (ApiPrincipal × TokenStore) := do
  ensure (isTokenId tokenId = true) .invalidInput
  let found ← loadToken codec store tokenId
  let stored ← orFail .invalidInput found
  ensure (¬(time < stored.createdAt ∨ stored.revokedAt ≠ none)) .stateConflict
  if stored.tokenState = .setupActive then
    return (stored.principal, store)
  else
    ensure (¬(stored.tokenState ≠ .setupPending ∨ stored.expiresAt = none ∨
      stored.expired time = true)) .stateConflict
    let updatedAt ← formatTime codec time
    let apiTokens ← orFail .stateConflict (store.apiTokens.updateOne
      (fun row => row.tokenId = tokenId && row.tokenState = "setup_pending" &&
        row.expiresAt.isSome && row.revokedAt.isNone)
      (fun row => { row with
        expiresAt := none
        tokenState := "setup_active"
        credentialUpdatedAt := updatedAt })
      (fun _ => rfl))
    return ({ stored with expiresAt := none, tokenState := .setupActive }.principal,
      { store with apiTokens := apiTokens })

def abortSetupApiToken (store : TokenStore) (tokenId : String) (time : OffsetDateTime) :
    Except StorageError TokenStore := do
  ensure (isTokenId tokenId = true) .invalidInput
  let found ← loadToken codec store tokenId
  let stored ← orFail .invalidInput found
  ensure (stored.tokenState = .setupPending ∨ stored.tokenState = .setupActive) .invalidInput
  ensure (¬time < stored.createdAt) .stateConflict
  if stored.revokedAt ≠ none then
    return store
  else
    let revokedAt ← formatTime codec time
    let apiTokens ← orFail .stateConflict (store.apiTokens.updateOne
      (fun row => row.tokenId = tokenId &&
        (row.tokenState = "setup_pending" || row.tokenState = "setup_active") &&
        row.revokedAt.isNone)
      (fun row => { row with revokedAt := some revokedAt })
      (fun _ => rfl))
    return { store with apiTokens := apiTokens }

/-- The time is not compared with the row. -/
def revokeApiToken (store : TokenStore) (tokenId : String) (time : OffsetDateTime) :
    Except StorageError TokenStore := do
  ensure (isTokenId tokenId = true) .invalidInput
  let revokedAt ← formatTime codec time
  let apiTokens ← orFail .invalidInput (store.apiTokens.updateOne
    (fun row => row.tokenId = tokenId && row.revokedAt.isNone)
    (fun row => { row with revokedAt := some revokedAt })
    (fun _ => rfl))
  return { store with apiTokens := apiTokens }

/-! ## Mutations -/

/-- A secret is returned by the call that generates it only. -/
structure ApiTokenMutationResult where
  outcome : ApiTokenMutationOutcome
  bearerToken : Option ApiTokenVerifier
  deriving DecidableEq

/-- `token_mutation_replay`. -/
def tokenMutationReplay (store : TokenStore) (input : IdempotencyInput) :
    Except StorageError (Option ApiTokenMutationOutcome) :=
  match store.records.lookup input.recordKey with
  | none => .ok none
  | some record =>
    if record.matches input then (orFail .invalidStoredState record.resultJson).map some
    else fail .idempotencyConflict

/-- `apply_token_mutation`, with the token that is generated: its id counts for an issue
only. -/
def applyTokenMutation (store : TokenStore) (mutation : ApiTokenMutation)
    (generated : ApiBearerToken) (time : OffsetDateTime) :
    Except StorageError (ApiTokenMutationResult × TokenStore) :=
  match mutation with
  | .issue scopes desktopBindings expiresAt =>
    if expiresAt.any (· ≤ time) then .ok (⟨.rejected .invalidExpiry, none⟩, store)
    else do
      let principalRef := "api-" ++ generated.tokenId
      let registration ← ApiTokenRegistration.new generated principalRef 1 scopes desktopBindings
        expiresAt time
      let store ← registerApiTokenInConnection codec store registration
      return (⟨.completed {
        tokenId := generated.tokenId
        principalRef := principalRef
        credentialRevision := 1
        scopes := scopes
        desktopBindings := desktopBindings.values
        expiresAt := expiresAt
        revokedAt := none }, some generated.verifier⟩, store)
  | .rotate tokenId expectedRevision => do
    match ← loadToken codec store tokenId with
    | none => return (⟨.rejected .notFound, none⟩, store)
    | some stored =>
      if stored.credentialRevision ≠ expectedRevision ∨ stored.revokedAt ≠ none ∨
          stored.tokenState.authenticates = false ∨ stored.expired time = true then
        return (⟨.rejected .stateConflict, none⟩, store)
      else
        let (revision, store) ← replaceApiTokenCredential codec store generated.verifier stored time
        return (⟨.completed { stored with credentialRevision := revision }.metadata,
          some generated.verifier⟩, store)
  | .revoke tokenId expectedRevision => do
    match ← loadToken codec store tokenId with
    | none => return (⟨.rejected .notFound, none⟩, store)
    | some stored =>
      if stored.credentialRevision ≠ expectedRevision ∨ stored.revokedAt ≠ none ∨
          stored.tokenState.authenticates = false then
        return (⟨.rejected .stateConflict, none⟩, store)
      else
        let revokedAt ← formatTime codec time
        let apiTokens := store.apiTokens.updateWhere
          (fun row => row.tokenId = tokenId)
          (fun row => { row with revokedAt := some revokedAt })
          (fun _ => rfl)
        return (⟨.completed { stored with revokedAt := some time }.metadata, none⟩,
          { store with apiTokens := apiTokens })

def mutationSuffix : ApiTokenMutationOutcome → String
  | .completed _ => "completed"
  | .rejected _ => "rejected"

/-- `insert_terminal_json_idempotency`. -/
def insertTokenRecord (store : TokenStore) (input : IdempotencyInput)
    (outcome : ApiTokenMutationOutcome) (time : OffsetDateTime) : Except StorageError TokenStore := do
  let createdAt ← formatTime codec input.createdAt
  let completedAt ← formatTime codec time
  let expiresAt ← formatTime codec input.expiresAt
  ensure (input.hmacKeyVersion ∈ store.hmacKeyVersions) .operationFailed
  ensure (store.records.rows.all fun other =>
    other.operationId ≠ input.operationId.text ||
      other.operation ≠ idempotentOperationToken input.operation) .operationFailed
  let records ← orFail .operationFailed (store.records.insert {
    principalRef := input.principalRef.text
    operation := idempotentOperationToken input.operation
    idempotencyKey := input.key.text
    operationId := input.operationId.text
    requestDigest := input.requestDigest
    digestSchemaVersion := input.digestSchemaVersion
    hmacKeyVersion := input.hmacKeyVersion
    status := "terminal"
    durableOutcome := "v1." ++ idempotentOperationToken input.operation ++ "." ++
      mutationSuffix outcome
    sessionId := none
    turnId := none
    resultSessionStateRevision := none
    resultSessionUpdatedAt := none
    createdAt := createdAt
    completedAt := some completedAt
    expiresAt := expiresAt
    resultJson := some outcome })
  return { store with records := records }

def mutateApiToken (store : TokenStore) (input : IdempotencyInput) (mutation : ApiTokenMutation)
    (generated : ApiBearerToken) (time : OffsetDateTime) :
    Except StorageError (ApiTokenMutationResult × TokenStore) := do
  requireOperation input mutation.operation
  match ← tokenMutationReplay store input with
  | some outcome => return (⟨outcome, none⟩, store)
  | none =>
    let (result, store) ← applyTokenMutation codec store mutation generated time
    let store ← insertTokenRecord codec store input result.outcome time
    return (result, store)

/-! ## Calls -/

inductive TokenCall where
  | register (token : ApiBearerToken) (principalRef : String) (credentialRevision : Nat)
      (scopes : ApiScopes) (desktopBindings : BindingSet) (expiresAt : Option OffsetDateTime)
      (createdAt : OffsetDateTime)
  | registerSetupPending (token : ApiBearerToken) (principalRef : String) (credentialRevision : Nat)
      (scopes : ApiScopes) (desktopBindings : BindingSet) (pendingUntil createdAt : OffsetDateTime)
  | mutate (input : IdempotencyInput) (mutation : ApiTokenMutation) (generated : ApiBearerToken)
      (time : OffsetDateTime)
  | rotate (replacement : ApiBearerToken) (expectedCredentialRevision : Nat) (time : OffsetDateTime)
  | activate (tokenId : String) (time : OffsetDateTime)
  | abortSetup (tokenId : String) (time : OffsetDateTime)
  | revoke (tokenId : String) (time : OffsetDateTime)
  | reconcileLocalController (token : ApiBearerToken) (desktopBindings : BindingSet)
      (time : OffsetDateTime)

inductive TokenReply where
  | done
  | principal (principal : ApiPrincipal)
  | mutated (result : ApiTokenMutationResult)
  deriving DecidableEq

def serveToken (store : TokenStore) : TokenCall → Except StorageError TokenReply × TokenStore
  | .register token principalRef revision scopes bindings expiresAt createdAt =>
    transact store (fun () => .done) (do
      let registration ← ApiTokenRegistration.new token principalRef revision scopes bindings
        expiresAt createdAt
      let after ← registerApiTokenInConnection codec store registration
      return ((), after))
  | .registerSetupPending token principalRef revision scopes bindings pendingUntil createdAt =>
    transact store (fun () => .done) (do
      let registration ← ApiTokenRegistration.newSetupPending token principalRef revision scopes
        bindings pendingUntil createdAt
      let after ← registerApiTokenInConnection codec store registration
      return ((), after))
  | .mutate input mutation generated time =>
    transact store .mutated (mutateApiToken codec store input mutation generated time)
  | .rotate replacement expected time =>
    transact store .principal (rotateApiToken codec store replacement expected time)
  | .activate tokenId time => transact store .principal (activateApiToken codec store tokenId time)
  | .abortSetup tokenId time =>
    transact store (fun () => .done) ((abortSetupApiToken codec store tokenId time).map ((), ·))
  | .revoke tokenId time =>
    transact store (fun () => .done) ((revokeApiToken codec store tokenId time).map ((), ·))
  | .reconcileLocalController token bindings time =>
    transact store (fun () => .done)
      ((reconcileLocalControllerToken codec store token bindings time).map ((), ·))

/-- Some calls later, of those allowed. -/
def TokensLater (allowed : TokenStore → TokenCall → Prop) : TokenStore → TokenStore → Prop :=
  Relation.ReflTransGen fun store after =>
    ∃ call, allowed store call ∧ (serveToken codec store call).2 = after

end

end Satelle.Host
