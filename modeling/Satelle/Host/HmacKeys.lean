import Satelle.Host.Lifecycle

/-! The keys that requests are digested with (`host/storage/auth.rs`), and the version
that a repeated request is digested with (`idempotency_hmac_key_version` of
`host/storage.rs`). The clock, the bytes of a new key and the HMAC are arguments. -/
namespace Satelle.Host
open Satelle.Core Lib

/-- A version is a positive 16-bit number. -/
def validateKeyVersion (stored : Nat) : Except StorageError Nat := do
  ensure (0 < stored ∧ stored < 2 ^ 16) .invalidStoredState
  return stored

section Versions
variable (codec : TimeCodec)

/-- `outcome = 'recovery_pending' OR expires_at > ?4`: the texts are compared. -/
def AdmissionCancellationRow.isLiveAt (observedAt : String) (row : AdmissionCancellationRow) :
    Bool :=
  row.outcome = "recovery_pending" || observedAt < row.expiresAt

def idempotencyHmacKeyVersion (db : Database) (principalRef : String)
    (operation : IdempotentOperation) (key : String) (now : OffsetDateTime) :
    Except StorageError (Option Nat) := do
  let request := (principalRef, idempotentOperationToken operation, key)
  match db.idempotencyRecords.lookup request with
  | some record => (validateKeyVersion record.hmacKeyVersion).map some
  | none => do
    let observedAt ← formatTime codec now
    match (db.admissionCancellations.lookup request).filter (·.isLiveAt observedAt) with
    | some row => (validateKeyVersion row.hmacKeyVersion).map some
    | none => .ok none

/-! ## Keys -/

/-- The length that the table checks is that of the type. -/
structure HmacKeyRow where
  keyVersion : Nat
  keyMaterial : Vector UInt8 32
  createdAt : String
  retiredAt : Option String
  deriving DecidableEq

def HmacKeyRow.isActive (row : HmacKeyRow) : Bool := row.retiredAt.isNone

abbrev HmacKeyTable := Table HmacKeyRow (·.keyVersion)

/-- The key that `seed_sensitive_state` makes with the store. -/
def seedHmacKey (key : Vector UInt8 32) (createdAt : OffsetDateTime) :
    Except StorageError HmacKeyTable := do
  let createdAt ← formatTime codec createdAt
  orFail .operationFailed (Table.empty.insert ⟨1, key, createdAt, none⟩)

def digestIdempotencyPayload (hmac : Vector UInt8 32 → List UInt8 → String) (keys : HmacKeyTable)
    (canonicalPayload : List UInt8) (requestedKeyVersion : Option Nat) :
    Except StorageError (Nat × String) := do
  let row ← orFail .invalidStoredState (match requestedKeyVersion with
    | some version => keys.lookup version
    | none => keys.rows.find? (·.isActive))
  let version ← validateKeyVersion row.keyVersion
  return (version, hmac row.keyMaterial canonicalPayload)

def rotateIdempotencyHmacKey (keys : HmacKeyTable) (key : Vector UInt8 32)
    (rotatedAt : OffsetDateTime) : Except StorageError (Nat × HmacKeyTable) := do
  let active ← orFail .invalidStoredState (keys.rows.find? (·.isActive))
  let maxVersion ← orFail .operationFailed (keys.rows.map (·.keyVersion)).max?
  ensure (maxVersion + 1 < 2 ^ 16) .invalidStoredState
  let formattedAt ← formatTime codec rotatedAt
  -- `CHECK (retired_at IS NULL OR retired_at >= created_at)`
  ensure (active.createdAt ≤ formattedAt) .operationFailed
  let retired ← orFail .invalidStoredState (keys.updateOne
    (fun row => row.keyVersion = active.keyVersion && row.isActive)
    (fun row => { row with retiredAt := some formattedAt }) (fun _ => rfl))
  -- `one_active_idempotency_hmac_key`
  ensure (∀ row ∈ retired.rows, row.isActive = false) .operationFailed
  let after ← orFail .operationFailed
    (retired.insert ⟨maxVersion + 1, key, formattedAt, none⟩)
  return (maxVersion + 1, after)

end Versions

end Satelle.Host
