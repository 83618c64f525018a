import Satelle.Lib.Crash

/-! Secret files of one provisioning (`core/secure-file.rs`): the destination with its
staging and backup siblings, each absent or holding bytes. Files are moved without
replacing and removed whole, each in one effect; a new file is written byte by byte.
Directories, file permissions and the operating system's own failures are left out. -/
namespace Satelle.Core
open Lib Lib.Crash

inductive SecureFileError where
  | unsafeOrUnavailable | tooLarge | notUtf8 | containsNul | overwriteRequired | rollbackFailed
  deriving DecidableEq, Repr

abbrev Bytes := List UInt8

def maxSecretFileBytes : Nat := 64 * 1024

/-- The paths of `OwnerOnlySecretFilePaths`. -/
inductive SecretPath where
  | destination | staging | backup
  deriving DecidableEq, Repr

@[ext] structure SecretFiles where
  destination : Option Bytes
  staging : Option Bytes
  backup : Option Bytes
  deriving DecidableEq, Repr

def SecretFiles.at (files : SecretFiles) : SecretPath → Option Bytes
  | .destination => files.destination
  | .staging => files.staging
  | .backup => files.backup

def SecretFiles.put (files : SecretFiles) (path : SecretPath) (file : Option Bytes) : SecretFiles :=
  match path with
  | .destination => { files with destination := file }
  | .staging => { files with staging := file }
  | .backup => { files with backup := file }

/-- A comparison key and the digest that it has to give. -/
structure Evidence (Digest : Type) where
  key : Bytes
  digest : Digest
  deriving DecidableEq, Repr

inductive SecretArtifactKind where
  | missing | candidate | prior | unowned
  deriving DecidableEq, Repr

inductive NoReplaceMoveOutcome where
  | moved | sourceMissing | destinationOccupied
  deriving DecidableEq, Repr

abbrev FileProgram := Program SecretFiles SecureFileError

/-! ## The operating system -/

/-- `read_secure_file`. -/
def readSecureFile (file : Option Bytes) : Except SecureFileError Bytes :=
  match file with
  | none => .error .unsafeOrUnavailable
  | some bytes => if bytes.length > maxSecretFileBytes then .error .tooLarge else .ok bytes

/-- One line ending at the end of a file does not belong to the secret. -/
def stripLineEnding (bytes : Bytes) : Bytes :=
  if bytes.getLast? = some 10 then
    if bytes.dropLast.getLast? = some 13 then bytes.dropLast.dropLast else bytes.dropLast
  else bytes

/-- `read_owner_only_secret_file`. -/
def readOwnerOnlySecretFile (file : Option Bytes) : Except SecureFileError Bytes := do
  let bytes ← readSecureFile file
  if 0 ∈ bytes then .error .containsNul
  else if (ByteArray.mk bytes.toArray).validateUTF8 then .ok (stripLineEnding bytes)
  else .error .notUtf8

def moveSiblingFileWithoutReplace (source target : SecretPath) :
    FileProgram NoReplaceMoveOutcome := do
  let files ← get
  match files.at source, files.at target with
  | none, _ => pure .sourceMissing
  | some _, some _ => pure .destinationOccupied
  | some bytes, none => do
    effect fun files => (files.put target (some bytes)).put source none
    pure .moved

/-- A file that is not there counts as removed. -/
def removeSiblingFile (path : SecretPath) : FileProgram Unit :=
  effect fun files => files.put path none

/-! ## Comparisons -/

section
variable {Digest : Type} [DecidableEq Digest] (hmac : Bytes → Bytes → Digest)

/-- `keyed_secret_comparison_digest`. -/
def keyedSecretComparisonDigest (key secret : Bytes) : Except SecureFileError Digest :=
  if key = [] then .error .unsafeOrUnavailable else .ok (hmac key secret)

def secretDigestMatches (file : Option Bytes) (evidence : Evidence Digest) :
    Except SecureFileError Bool := do
  let stored ← readSecureFile file
  let digest ← keyedSecretComparisonDigest hmac evidence.key stored
  return digest = evidence.digest

/-- `verify_owner_only_secret_digest`. -/
def verifyOwnerOnlySecretDigest (file : Option Bytes) (evidence : Evidence Digest) :
    Except SecureFileError Unit := do
  let same ← secretDigestMatches hmac file evidence
  if same then .ok () else .error .unsafeOrUnavailable

/-- `classify_secret_artifact`: what is both counts as the prior secret. -/
def classifySecretArtifact (candidate : Evidence Digest) (prior : Option (Evidence Digest))
    (file : Option Bytes) : Except SecureFileError SecretArtifactKind :=
  match file with
  | none => .ok .missing
  | some bytes => do
    let isPrior ← match prior with
      | none => .ok false
      | some prior => secretDigestMatches hmac (some bytes) prior
    if isPrior then
      return .prior
    let isCandidate ← secretDigestMatches hmac (some bytes) candidate
    return if isCandidate then .candidate else .unowned

def removeVerifiedSecretArtifact (candidate : Evidence Digest) (prior : Option (Evidence Digest))
    (path : SecretPath) (expected : SecretArtifactKind) : FileProgram Unit := do
  let kind ← reads fun files => classifySecretArtifact hmac candidate prior (files.at path)
  if kind = expected then removeSiblingFile path else fail .unsafeOrUnavailable

def restoreParkedSecret (candidate : Evidence Digest) (prior : Option (Evidence Digest))
    (source target : SecretPath) (expected : SecretArtifactKind) : FileProgram Unit := do
  let sourceKind ← reads fun files => classifySecretArtifact hmac candidate prior (files.at source)
  if sourceKind ≠ expected then
    fail .unsafeOrUnavailable
  else
    match ← moveSiblingFileWithoutReplace source target with
    | .moved =>
      let restoredKind ← reads fun files =>
        classifySecretArtifact hmac candidate prior (files.at target)
      if restoredKind = expected then pure () else fail .unsafeOrUnavailable
    | .sourceMissing | .destinationOccupied => fail .unsafeOrUnavailable

/-! ## Staging -/

/-- `stage_owner_only_secret_file`. -/
def stageOwnerOnlySecretFile (secret : Bytes) (expected : Evidence Digest) : FileProgram Unit := do
  if secret.length > maxSecretFileBytes then
    fail .tooLarge
  else if 0 ∈ secret then
    fail .containsNul
  else
    let digest ← reads fun _ => keyedSecretComparisonDigest hmac expected.key secret
    if digest ≠ expected.digest then
      fail .unsafeOrUnavailable
    else
      let files ← get
      match files.staging with
      | some _ => reads fun files => verifyOwnerOnlySecretDigest hmac files.staging expected
      | none =>
        -- the file is created empty
        effects (secret.inits.map fun written files => { files with staging := some written })
        match ← reads fun files => .ok (verifyOwnerOnlySecretDigest hmac files.staging expected) with
        | .ok () => pure ()
        | .error e => do
          removeSiblingFile .staging
          fail e

/-! ## Publication -/

/-- `publish_owner_only_secret_file`: whether a prior secret has been replaced. -/
def publishOwnerOnlySecretFile (expectedDestinationExists overwriteAuthorized : Bool)
    (candidate : Evidence Digest) (priorComparisonKey : Option Bytes) (priorDigest : Option Digest) :
    FileProgram Bool := do
  reads fun files => verifyOwnerOnlySecretDigest hmac files.staging candidate
  if expectedDestinationExists ∧ ¬overwriteAuthorized then
    fail .overwriteRequired
  else if ¬expectedDestinationExists then
    match ← moveSiblingFileWithoutReplace .staging .destination with
    | .moved => do
      reads fun files => verifyOwnerOnlySecretDigest hmac files.destination candidate
      pure false
    | .destinationOccupied => fail .overwriteRequired
    | .sourceMissing => fail .unsafeOrUnavailable
  else
    match priorComparisonKey, priorDigest with
    | some priorKey, some priorDigest =>
      let prior : Evidence Digest := ⟨priorKey, priorDigest⟩
      match ← moveSiblingFileWithoutReplace .destination .backup with
      | .sourceMissing | .destinationOccupied => fail .unsafeOrUnavailable
      | .moved =>
        let comparison ← reads fun files => .ok (secretDigestMatches hmac files.backup prior)
        match comparison with
        | .ok false => do
          restoreParkedSecret hmac candidate prior .backup .destination .unowned
          fail .overwriteRequired
        | .error e => do
          restoreParkedSecret hmac candidate prior .backup .destination .unowned
          fail e
        | .ok true =>
          match ← moveSiblingFileWithoutReplace .staging .destination with
          | .moved => do
            reads fun files => verifyOwnerOnlySecretDigest hmac files.destination candidate
            pure true
          | .destinationOccupied => do
            removeVerifiedSecretArtifact hmac candidate prior .staging .candidate
            removeVerifiedSecretArtifact hmac candidate prior .backup .prior
            fail .overwriteRequired
          | .sourceMissing => do
            restoreParkedSecret hmac candidate prior .backup .destination .prior
            fail .unsafeOrUnavailable
    | _, _ => fail .unsafeOrUnavailable

/-! ## Rollback -/

/-- The first part of a rollback: a staged candidate that has not been published goes, and
the rollback is done unless the destination holds the candidate as well. -/
def rollbackStaged (candidate : Evidence Digest) (prior : Option (Evidence Digest))
    (destination staging backup : SecretArtifactKind) : FileProgram Bool :=
  if destination ≠ .missing ∧ staging ≠ .missing then
    match destination, staging, backup with
    | .unowned, .candidate, .missing | .prior, .candidate, .missing => do
      removeVerifiedSecretArtifact hmac candidate prior .staging .candidate
      pure true
    | .unowned, .candidate, .prior | .prior, .candidate, .prior => do
      removeVerifiedSecretArtifact hmac candidate prior .staging .candidate
      removeVerifiedSecretArtifact hmac candidate prior .backup .prior
      pure true
    | .candidate, .candidate, _ => do
      removeVerifiedSecretArtifact hmac candidate prior .staging .candidate
      pure false
    | _, _, _ => fail .rollbackFailed
  else pure false

/-- The last part: the destination has been moved aside. -/
def rollbackParked (candidate : Evidence Digest) (prior : Option (Evidence Digest))
    (restoresPrior : Bool) (staging backup : SecretArtifactKind) : FileProgram Unit :=
  let restore := restoreParkedSecret hmac candidate prior
  let remove := removeVerifiedSecretArtifact hmac candidate prior
  match staging, backup with
  | .candidate, .prior | .candidate, .unowned => do
    restore .backup .destination backup
    remove .staging .candidate
  | .candidate, .missing =>
    if restoresPrior then fail .rollbackFailed else remove .staging .candidate
  | .unowned, .missing => restore .staging .destination .unowned
  | .unowned, .prior => do
    restore .staging .destination .unowned
    remove .backup .prior
  | .prior, .missing => restore .staging .destination .prior
  | .prior, .prior => do
    restore .staging .destination .prior
    remove .backup .prior
  | .missing, .prior | .missing, .unowned => restore .backup .destination backup
  | .missing, .missing => if restoresPrior then fail .rollbackFailed else pure ()
  | _, _ => fail .rollbackFailed

def classifyAt (candidate : Evidence Digest) (prior : Option (Evidence Digest)) (path : SecretPath) :
    FileProgram SecretArtifactKind :=
  reads fun files => classifySecretArtifact hmac candidate prior (files.at path)

/-- What is left to do once no staged candidate is in the way of the destination. -/
def rollbackAside (candidate : Evidence Digest) (prior : Option (Evidence Digest))
    (overwritten : Bool) : FileProgram Unit := do
  let staging ← classifyAt hmac candidate prior .staging
  let backup ← classifyAt hmac candidate prior .backup
  rollbackParked hmac candidate prior (overwritten || prior.isSome) staging backup

def rollbackClassified (candidate : Evidence Digest) (prior : Option (Evidence Digest))
    (overwritten : Bool) (destination staging backup : SecretArtifactKind) : FileProgram Unit := do
  let done ← rollbackStaged hmac candidate prior destination staging backup
  if done then
    pure ()
  else if destination = .missing then
    rollbackAside hmac candidate prior overwritten
  else
    match ← moveSiblingFileWithoutReplace .destination .staging with
    | .moved => rollbackAside hmac candidate prior overwritten
    | .sourceMissing | .destinationOccupied => fail .rollbackFailed

def rollbackWith (candidate : Evidence Digest) (prior : Option (Evidence Digest))
    (overwritten : Bool) : FileProgram Unit := do
  let destination ← classifyAt hmac candidate prior .destination
  let staging ← classifyAt hmac candidate prior .staging
  let backup ← classifyAt hmac candidate prior .backup
  rollbackClassified hmac candidate prior overwritten destination staging backup

/-- `rollback_owner_only_secret_file`. -/
def rollbackOwnerOnlySecretFile (overwritten : Bool) (candidate : Evidence Digest)
    (priorComparisonKey : Option Bytes) (priorDigest : Option Digest) : FileProgram Unit :=
  onError (fun _ => .rollbackFailed) <|
    match priorComparisonKey, priorDigest with
    | some key, some digest => rollbackWith hmac candidate (some ⟨key, digest⟩) overwritten
    | none, none => rollbackWith hmac candidate none overwritten
    | _, _ => fail .rollbackFailed

/-! ## Cleanup -/

def cleanupArtifact (path : SecretPath) (found : Option Bytes)
    (evidence : Option (Evidence Digest)) : FileProgram Unit :=
  match found, evidence with
  | none, _ => pure ()
  | some _, none => fail .unsafeOrUnavailable
  | some _, some evidence => do
    reads fun files => verifyOwnerOnlySecretDigest hmac (files.at path) evidence
    removeSiblingFile path

/-- `cleanup_owner_only_secret_file`. -/
def cleanupOwnerOnlySecretFile (candidate prior : Option (Evidence Digest)) : FileProgram Unit := do
  let found ← get
  cleanupArtifact hmac .staging found.staging candidate
  cleanupArtifact hmac .backup found.backup prior

end

end Satelle.Core
