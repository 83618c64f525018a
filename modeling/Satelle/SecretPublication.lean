import Satelle.Core.SecureFile
import Satelle.Lib.Iteration

/-! The publication of a secret file and its rollback, with crashes anywhere in either. -/
namespace Satelle.SecretPublication
open Satelle.Core Lib Lib.Crash

section
variable {Digest : Type} [DecidableEq Digest] {hmac : Bytes → Bytes → Digest}

/-! ## Comparisons -/

/-- The evidence is that of a secret that can be read. -/
structure Attests (hmac : Bytes → Bytes → Digest) (evidence : Evidence Digest) (secret : Bytes) :
    Prop where
  keyed : evidence.key ≠ []
  digest : evidence.digest = hmac evidence.key secret
  bounded : secret.length ≤ maxSecretFileBytes

theorem readSecureFile_ok : readSecureFile file = .ok bytes ↔
    file = some bytes ∧ bytes.length ≤ maxSecretFileBytes := by
  unfold readSecureFile
  cases file with
  | none => simp
  | some stored =>
    simp only [check_ok, Except.ok.injEq, Option.some.injEq, gt_iff_lt, Nat.not_lt]
    constructor
    · rintro ⟨fits, rfl⟩
      exact ⟨rfl, fits⟩
    · rintro ⟨rfl, fits⟩
      exact ⟨fits, rfl⟩

omit [DecidableEq Digest] in
theorem keyedSecretComparisonDigest_ok : keyedSecretComparisonDigest hmac key secret = .ok digest ↔
    key ≠ [] ∧ hmac key secret = digest := by
  unfold keyedSecretComparisonDigest
  by_cases empty : key = []
  · simp [empty]
  · simp [empty]

theorem secretDigestMatches_ok : secretDigestMatches hmac file evidence = .ok same ↔
    ∃ bytes, file = some bytes ∧ bytes.length ≤ maxSecretFileBytes ∧ evidence.key ≠ [] ∧
      decide (hmac evidence.key bytes = evidence.digest) = same := by
  unfold secretDigestMatches
  simp only [except_bind_ok, readSecureFile_ok, keyedSecretComparisonDigest_ok]
  constructor
  · rintro ⟨bytes, ⟨there, fits⟩, _, ⟨keyed, rfl⟩, told⟩
    exact ⟨bytes, there, fits, keyed, by simpa [pure, Except.pure] using told⟩
  · rintro ⟨bytes, there, fits, keyed, told⟩
    exact ⟨bytes, ⟨there, fits⟩, _, ⟨keyed, rfl⟩, by simpa [pure, Except.pure] using told⟩

variable (injective : ∀ key, Function.Injective (hmac key))
include injective

section Attested
variable {evidence : Evidence Digest} (attests : Attests hmac evidence secret)
include attests

/-- With digests that never collide, only the secret itself matches. -/
theorem attested_matches (fits : bytes.length ≤ maxSecretFileBytes) :
    secretDigestMatches hmac (some bytes) evidence = .ok (decide (bytes = secret)) := by
  refine secretDigestMatches_ok.mpr ⟨bytes, rfl, fits, attests.keyed, ?_⟩
  rw [attests.digest, decide_eq_decide]
  exact (injective _).eq_iff

theorem attested_other (other : bytes ≠ secret)
    (matched : secretDigestMatches hmac (some bytes) evidence = .ok same) : same = false := by
  obtain ⟨_, ⟨⟩, bounded, _⟩ := secretDigestMatches_ok.mp matched
  rw [attested_matches injective attests bounded, Except.ok.injEq] at matched
  simpa [other] using matched.symm

theorem attested_refuses (other : bytes ≠ secret) :
    verifyOwnerOnlySecretDigest hmac (some bytes) evidence ≠ .ok () := by
  intro verified
  simp only [verifyOwnerOnlySecretDigest, except_bind_ok] at verified
  obtain ⟨same, matched, told⟩ := verified
  simp [attested_other injective attests other matched] at told

theorem attested_verifies :
    verifyOwnerOnlySecretDigest hmac (some secret) evidence = .ok () := by
  simp [verifyOwnerOnlySecretDigest, attested_matches injective attests attests.bounded, bind,
    Except.bind]

end Attested

end

/-! ## Moves and removals -/

section
variable {Digest : Type} [DecidableEq Digest] {hmac : Bytes → Bytes → Digest}
variable {safe : SecretFiles → Prop} {files : SecretFiles}

theorem reaches_move (there : files.at source = some bytes) (free : files.at target = none)
    (now : safe files) (moved : safe ((files.put target (some bytes)).put source none))
    (ends : after (.ok .moved) ((files.put target (some bytes)).put source none)) :
    Reaches safe (moveSiblingFileWithoutReplace source target) files after := by
  refine reaches_bind (reaches_reads now ?_)
  simp only [Onward, there, free]
  exact reaches_bind (reaches_effect now moved (reaches_pure moved ends))

theorem reaches_remove
    (found : classifySecretArtifact hmac candidate prior (files.at path) = .ok expected)
    (now : safe files) (removed : safe (files.put path none))
    (ends : after (.ok ()) (files.put path none)) :
    Reaches safe (removeVerifiedSecretArtifact hmac candidate prior path expected) files after := by
  refine reaches_bind (reaches_reads now ?_)
  simp only [Onward, found, if_true]
  exact reaches_effect now removed ends

theorem reaches_restore (apart : target ≠ source) (there : files.at source = some bytes)
    (free : files.at target = none)
    (found : classifySecretArtifact hmac candidate prior (some bytes) = .ok expected)
    (now : safe files) (moved : safe ((files.put target (some bytes)).put source none))
    (ends : after (.ok ()) ((files.put target (some bytes)).put source none)) :
    Reaches safe (restoreParkedSecret hmac candidate prior source target expected) files after := by
  have lands : ((files.put target (some bytes)).put source none).at target = some bytes := by
    cases source <;> cases target <;> first | rfl | exact absurd rfl apart
  refine reaches_bind (reaches_reads now ?_)
  simp only [Onward, there, found, ne_eq, not_true_eq_false, if_false]
  refine reaches_bind (reaches_move there free now moved ?_)
  refine reaches_bind (reaches_reads moved ?_)
  simp only [Onward, lands, found, if_true]
  exact reaches_pure moved ends

/-- Where each file can be compared, the kinds decide. -/
theorem reaches_rollback
    (ofDestination : classifySecretArtifact hmac candidate prior files.destination = .ok destination)
    (ofStaging : classifySecretArtifact hmac candidate prior files.staging = .ok staging)
    (ofBackup : classifySecretArtifact hmac candidate prior files.backup = .ok backup)
    (now : safe files)
    (onward : Reaches safe (rollbackClassified hmac candidate prior overwritten destination staging
      backup) files after) :
    Reaches safe (rollbackWith hmac candidate prior overwritten) files after := by
  refine reaches_bind (reaches_reads now ?_)
  simp only [Onward, SecretFiles.at, ofDestination]
  refine reaches_bind (reaches_reads now ?_)
  simp only [Onward, SecretFiles.at, ofStaging]
  refine reaches_bind (reaches_reads now ?_)
  simp only [Onward, SecretFiles.at, ofBackup]
  exact onward

/-- The path is empty, or its file is the one that is attested and goes. -/
theorem reaches_cleanupArtifact (there : files.at path = found)
    (verifies : ∀ bytes, found = some bytes → ∃ one, evidence = some one ∧
      verifyOwnerOnlySecretDigest hmac (some bytes) one = .ok ())
    (now : safe files) (cleaned : safe (files.put path none))
    (ends : after (.ok ()) (files.put path none)) :
    Reaches safe (cleanupArtifact hmac path found evidence) files after := by
  cases found with
  | none =>
    have same : files.put path none = files := by
      obtain ⟨destination, staging, backup⟩ := files
      cases path <;> simp_all [SecretFiles.at, SecretFiles.put]
    exact reaches_pure now (same ▸ ends)
  | some bytes =>
    obtain ⟨one, rfl, verified⟩ := verifies bytes rfl
    refine reaches_bind (reaches_reads now ?_)
    simp only [Onward, there, verified]
    exact reaches_effect now cleaned ends

end

/-! ## What is never removed -/

/-- How many of the files hold these bytes. -/
def copies (content : Bytes) (files : SecretFiles) : Nat :=
  [files.destination, files.staging, files.backup].count (some content)

theorem copies_removed (other : files.at path ≠ some content) :
    copies content (files.put path none) = copies content files := by
  obtain ⟨destination, staging, backup⟩ := files
  cases path <;> simp_all [SecretFiles.at, SecretFiles.put, copies, List.count_cons]

section
variable {Digest : Type} [DecidableEq Digest] {hmac : Bytes → Bytes → Digest}
variable {candidate : Evidence Digest} {prior : Option (Evidence Digest)} {content : Bytes}

/-- The number of copies is kept. -/
abbrev Spares (content : Bytes) (program : FileProgram α) : Prop :=
  ∀ n, Keeps (fun files => copies content files = n) program

theorem spares_move (source target : SecretPath) :
    Spares content (moveSiblingFileWithoutReplace source target) := by
  intro n files holds
  refine reaches_bind (reaches_reads holds ?_)
  simp only [Onward]
  split
  · exact reaches_pure holds holds
  · exact reaches_pure holds holds
  · rename_i bytes there free
    have same : copies content ((files.put target (some bytes)).put source none) =
        copies content files := by
      obtain ⟨destination, staging, backup⟩ := files
      cases source <;> cases target <;>
        simp_all [SecretFiles.at, SecretFiles.put, copies, List.count_cons, Nat.add_comm]
    have moved := same.trans holds
    exact reaches_bind (reaches_effect holds moved (reaches_pure moved moved))

/-- The bytes are neither the candidate nor the prior secret. -/
def Foreign (hmac : Bytes → Bytes → Digest) (candidate : Evidence Digest)
    (prior : Option (Evidence Digest)) (content : Bytes) : Prop :=
  ∀ kind, classifySecretArtifact hmac candidate prior (some content) = .ok kind → kind = .unowned

theorem spares_removeVerified (foreign : Foreign hmac candidate prior content) (path : SecretPath)
    (owned : expected ≠ .unowned) :
    Spares content (removeVerifiedSecretArtifact hmac candidate prior path expected) := by
  intro n files holds
  refine reaches_bind (reaches_reads holds ?_)
  cases found : classifySecretArtifact hmac candidate prior (files.at path) with
  | error e => exact holds
  | ok kind =>
    simp only [Onward]
    split
    · rename_i isExpected
      subst isExpected
      have removed : copies content (files.put path none) = n := by
        refine (copies_removed ?_).trans holds
        intro there
        rw [there] at found
        exact owned (foreign kind found)
      exact reaches_effect holds removed removed
    · exact reaches_fail holds holds

theorem spares_restore (source target : SecretPath) (expected : SecretArtifactKind) :
    Spares content (restoreParkedSecret hmac candidate prior source target expected) := by
  intro n
  refine keeps_bind (keeps_reads _) fun sourceKind => ?_
  split
  · exact keeps_reads _
  · refine keeps_bind (spares_move source target n) fun outcome => ?_
    split
    · refine keeps_bind (keeps_reads _) fun restoredKind => ?_
      split <;> exact keeps_reads _
    · exact keeps_reads _
    · exact keeps_reads _

private theorem candidate_owned : SecretArtifactKind.candidate ≠ .unowned := by decide

private theorem prior_owned : SecretArtifactKind.prior ≠ .unowned := by decide

section
variable (foreign : Foreign hmac candidate prior content)
include foreign

private theorem spares_rollbackStaged (destination staging backup : SecretArtifactKind) :
    Spares content (rollbackStaged hmac candidate prior destination staging backup) := by
  intro n
  have removes := fun path => spares_removeVerified foreign path candidate_owned n
  have removesPrior := fun path => spares_removeVerified foreign path prior_owned n
  unfold rollbackStaged
  split
  · split
    · exact keeps_bind (removes _) fun _ => keeps_reads _
    · exact keeps_bind (removes _) fun _ => keeps_reads _
    · exact keeps_bind (removes _) fun _ => keeps_bind (removesPrior _) fun _ => keeps_reads _
    · exact keeps_bind (removes _) fun _ => keeps_bind (removesPrior _) fun _ => keeps_reads _
    · exact keeps_bind (removes _) fun _ => keeps_reads _
    · exact keeps_reads _
  · exact keeps_reads _

private theorem spares_rollbackParked (restoresPrior : Bool) (staging backup : SecretArtifactKind) :
    Spares content (rollbackParked hmac candidate prior restoresPrior staging backup) := by
  intro n
  have removes := fun path => spares_removeVerified foreign path candidate_owned n
  have removesPrior := fun path => spares_removeVerified foreign path prior_owned n
  have restores : ∀ source target expected, Keeps (fun files => copies content files = n)
      (restoreParkedSecret hmac candidate prior source target expected) :=
    fun source target expected => spares_restore source target expected n
  unfold rollbackParked
  split
  · exact keeps_bind (restores _ _ _) fun _ => removes _
  · exact keeps_bind (restores _ _ _) fun _ => removes _
  · split
    · exact keeps_reads _
    · exact removes _
  · exact restores _ _ _
  · exact keeps_bind (restores _ _ _) fun _ => removesPrior _
  · exact restores _ _ _
  · exact keeps_bind (restores _ _ _) fun _ => removesPrior _
  · exact restores _ _ _
  · exact restores _ _ _
  · split <;> exact keeps_reads _
  · exact keeps_reads _

private theorem spares_rollbackAside
    (overwritten : Bool) : Spares content (rollbackAside hmac candidate prior overwritten) :=
  fun n => keeps_bind (keeps_reads _) fun _ => keeps_bind (keeps_reads _) fun _ =>
    spares_rollbackParked foreign _ _ _ n

theorem spares_rollbackWith (overwritten : Bool) :
    Spares content (rollbackWith hmac candidate prior overwritten) := by
  intro n
  refine keeps_bind (keeps_reads _) fun destination => keeps_bind (keeps_reads _) fun staging =>
    keeps_bind (keeps_reads _) fun backup => ?_
  refine keeps_bind (spares_rollbackStaged foreign _ _ _ n) fun done => ?_
  split
  · exact keeps_reads _
  · split
    · exact spares_rollbackAside foreign overwritten n
    · refine keeps_bind (spares_move _ _ n) fun outcome => ?_
      split
      · exact spares_rollbackAside foreign overwritten n
      · exact keeps_reads _
      · exact keeps_reads _

end

private theorem spares_cleanupArtifact
    (other : ∀ one ∈ evidence, verifyOwnerOnlySecretDigest hmac (some content) one ≠ .ok ())
    (path : SecretPath) (found : Option Bytes) :
    Spares content (cleanupArtifact hmac path found evidence) := by
  intro n
  unfold cleanupArtifact
  split
  · exact keeps_reads _
  · exact keeps_reads _
  · rename_i one
    intro files holds
    refine reaches_bind (reaches_reads holds ?_)
    cases verified : verifyOwnerOnlySecretDigest hmac (files.at path) one with
    | error e => exact holds
    | ok =>
      have removed : copies content (files.put path none) = n := by
        refine (copies_removed ?_).trans holds
        intro there
        rw [there] at verified
        exact other one rfl verified
      exact reaches_effect holds removed removed

theorem spares_cleanup {candidate prior : Option (Evidence Digest)}
    (notCandidate : ∀ evidence ∈ candidate, verifyOwnerOnlySecretDigest hmac (some content) evidence ≠
      .ok ())
    (notPrior : ∀ evidence ∈ prior, verifyOwnerOnlySecretDigest hmac (some content) evidence ≠ .ok ()) :
    Spares content (cleanupOwnerOnlySecretFile hmac candidate prior) :=
  fun n => keeps_bind (keeps_reads _) fun _ =>
    keeps_bind (spares_cleanupArtifact notCandidate _ _ n) fun _ =>
      spares_cleanupArtifact notPrior _ _ n

end

/-! ## Publications -/

/-- A candidate secret and the one it replaces, with the comparison keys for both. -/
structure Publication where
  candidate : Bytes
  prior : Option Bytes
  candidateKey : Bytes
  priorKey : Bytes
  candidateKeyed : candidateKey ≠ []
  priorKeyed : priorKey ≠ []
  candidateBounded : candidate.length ≤ maxSecretFileBytes
  priorBounded : ∀ secret ∈ prior, secret.length ≤ maxSecretFileBytes

namespace Publication
variable {Digest : Type} [DecidableEq Digest] (hmac : Bytes → Bytes → Digest)
variable (publication : Publication)

def candidateEvidence : Evidence Digest :=
  ⟨publication.candidateKey, hmac publication.candidateKey publication.candidate⟩

def priorEvidence : Option (Evidence Digest) :=
  publication.prior.map fun secret => ⟨publication.priorKey, hmac publication.priorKey secret⟩

/-- The candidate has been staged. -/
def staged : SecretFiles := ⟨publication.prior, some publication.candidate, none⟩

def publish (overwriteAuthorized : Bool) : FileProgram Bool :=
  publishOwnerOnlySecretFile hmac publication.prior.isSome overwriteAuthorized
    (publication.candidateEvidence hmac) ((publication.priorEvidence hmac).map (·.key))
    ((publication.priorEvidence hmac).map (·.digest))

def rollback (overwritten : Bool) : FileProgram Unit :=
  rollbackOwnerOnlySecretFile hmac overwritten (publication.candidateEvidence hmac)
    ((publication.priorEvidence hmac).map (·.key)) ((publication.priorEvidence hmac).map (·.digest))

def cleanup : FileProgram Unit :=
  cleanupOwnerOnlySecretFile hmac (some (publication.candidateEvidence hmac))
    (publication.priorEvidence hmac)

/-- The files that a crash of the publication or of its rollback leaves. -/
inductive Interrupted (publication : Publication) : SecretFiles → Prop where
  | staged (replaced : publication.prior = old) :
      Interrupted publication ⟨old, some publication.candidate, none⟩
  | parked (replaced : publication.prior = old) :
      Interrupted publication ⟨none, some publication.candidate, old⟩
  | published (replaced : publication.prior = old) :
      Interrupted publication ⟨some publication.candidate, none, old⟩
  | restored (replaced : publication.prior = old) : Interrupted publication ⟨old, none, none⟩
  /-- A rollback has moved the prior secret aside. -/
  | aside (replaced : publication.prior = old) : Interrupted publication ⟨none, old, none⟩

variable {hmac} {publication : Publication}

omit [DecidableEq Digest] in
theorem candidate_attested (hmac : Bytes → Bytes → Digest) (publication : Publication) :
    Attests hmac (publication.candidateEvidence hmac) publication.candidate :=
  ⟨publication.candidateKeyed, rfl, publication.candidateBounded⟩

omit [DecidableEq Digest] in
theorem prior_attested (hmac : Bytes → Bytes → Digest) (replaced : publication.prior = some secret) :
    Attests hmac ⟨publication.priorKey, hmac publication.priorKey secret⟩ secret :=
  ⟨publication.priorKeyed, rfl, publication.priorBounded secret replaced⟩

variable (injective : ∀ key, Function.Injective (hmac key))
  (distinct : publication.prior ≠ some publication.candidate)
include injective

theorem classify_prior (replaced : publication.prior = some secret) :
    classifySecretArtifact hmac (publication.candidateEvidence hmac)
      (publication.priorEvidence hmac) (some secret) = .ok .prior := by
  simp [classifySecretArtifact, priorEvidence, replaced,
    attested_matches injective (prior_attested hmac replaced) (publication.priorBounded secret replaced),
    bind, Except.bind, pure, Except.pure]

include distinct

theorem classify_candidate :
    classifySecretArtifact hmac (publication.candidateEvidence hmac)
      (publication.priorEvidence hmac) (some publication.candidate) = .ok .candidate := by
  have matched := attested_matches injective (candidate_attested hmac publication)
    publication.candidateBounded
  cases replaced : publication.prior with
  | none =>
    simp [classifySecretArtifact, priorEvidence, replaced, matched, bind, Except.bind, pure,
      Except.pure]
  | some secret =>
    have other : publication.candidate ≠ secret := by
      rintro rfl
      exact distinct replaced
    simp [classifySecretArtifact, priorEvidence, replaced, matched, other,
      attested_matches injective (prior_attested hmac replaced) publication.candidateBounded,
      bind, Except.bind, pure, Except.pure]

omit injective distinct in
theorem rollback_eq (overwritten : Bool) : publication.rollback hmac overwritten =
    onError (fun _ => .rollbackFailed) (rollbackWith hmac (publication.candidateEvidence hmac)
      (publication.priorEvidence hmac) overwritten) := by
  unfold rollback rollbackOwnerOnlySecretFile
  cases publication.priorEvidence hmac <;> rfl

omit injective distinct in
theorem classify_missing : classifySecretArtifact hmac (publication.candidateEvidence hmac)
    (publication.priorEvidence hmac) none = .ok .missing := rfl

/-- The files are those of the time before. -/
def Restored (publication : Publication) (result : Except SecureFileError Unit)
    (files : SecretFiles) : Prop :=
  result = .ok () ∧ files = ⟨publication.prior, none, none⟩

/-- The destination is empty, and the prior secret in the backup. -/
private theorem parked_restores (fits : publication.prior = none → overwritten = false)
    (replaced : publication.prior = old) :
    Reaches publication.Interrupted (rollbackAside hmac (publication.candidateEvidence hmac)
      (publication.priorEvidence hmac) overwritten)
      ⟨none, some publication.candidate, old⟩ publication.Restored := by
  have candidate := classify_candidate injective distinct
  refine reaches_bind (reaches_reads (.parked replaced) ?_)
  simp only [Onward, SecretFiles.at, candidate]
  refine reaches_bind (reaches_reads (.parked replaced) ?_)
  cases old with
  | none =>
    have unreplaced : (publication.priorEvidence hmac).isSome = false := by
      simp [priorEvidence, replaced]
    simp only [Onward, SecretFiles.at, classify_missing, rollbackParked, fits replaced,
      unreplaced, Bool.or_self, Bool.false_eq_true, if_false]
    exact reaches_remove candidate (.parked replaced) (.restored replaced)
      ⟨rfl, by rw [replaced]; rfl⟩
  | some secret =>
    have prior := classify_prior injective replaced
    simp only [Onward, SecretFiles.at, prior, rollbackParked]
    refine reaches_bind (reaches_restore (by decide) rfl rfl prior (.parked replaced)
      (.staged replaced) ?_)
    exact reaches_remove candidate (.staged replaced) (.restored replaced)
      ⟨rfl, by rw [replaced]; rfl⟩

omit distinct in
/-- A rollback before has moved the prior secret aside. -/
private theorem aside_restores (fits : publication.prior = none → overwritten = false)
    (replaced : publication.prior = old) :
    Reaches publication.Interrupted (rollbackAside hmac (publication.candidateEvidence hmac)
      (publication.priorEvidence hmac) overwritten) ⟨none, old, none⟩ publication.Restored := by
  refine reaches_bind (reaches_reads (.aside replaced) ?_)
  cases old with
  | none =>
    have unreplaced : (publication.priorEvidence hmac).isSome = false := by
      simp [priorEvidence, replaced]
    simp only [Onward, SecretFiles.at, classify_missing]
    refine reaches_bind (reaches_reads (.aside replaced) ?_)
    simp only [Onward, SecretFiles.at, classify_missing, rollbackParked, fits replaced,
      unreplaced, Bool.or_self, Bool.false_eq_true, if_false]
    exact reaches_pure (.aside replaced) ⟨rfl, by rw [replaced]⟩
  | some secret =>
    have prior := classify_prior injective replaced
    simp only [Onward, SecretFiles.at, prior]
    refine reaches_bind (reaches_reads (.aside replaced) ?_)
    simp only [Onward, SecretFiles.at, classify_missing, rollbackParked]
    exact reaches_restore (by decide) rfl rfl prior (.aside replaced) (.restored replaced)
      ⟨rfl, by rw [replaced]; rfl⟩

omit distinct in
/-- What the prior secret is classified as, wherever it is. -/
private theorem classify_old (replaced : publication.prior = old) :
    classifySecretArtifact hmac (publication.candidateEvidence hmac)
      (publication.priorEvidence hmac) old = .ok (if old.isSome then .prior else .missing) := by
  cases old with
  | none => rfl
  | some secret => exact classify_prior injective replaced

/-- Wherever the publication or a rollback has crashed, a rollback that comes to its end
restores what was there, and one that crashes can be started again. -/
theorem rollback_restores (fits : publication.prior = none → overwritten = false)
    (interrupted : publication.Interrupted files) :
    Reaches publication.Interrupted (publication.rollback hmac overwritten) files
      publication.Restored := by
  have candidate := classify_candidate injective distinct
  have unharmed : ∀ result files, publication.Restored result files →
      publication.Restored (result.mapError fun _ => .rollbackFailed) files := by
    rintro _ _ ⟨rfl, same⟩
    exact ⟨rfl, same⟩
  rw [rollback_eq]
  refine reaches_onError (Reaches.imp ?_ unharmed)
  cases interrupted with
  | @staged old replaced =>
    have now := Interrupted.staged replaced
    refine reaches_rollback (classify_old injective replaced) candidate classify_missing now ?_
    cases old with
    | none =>
      -- nothing has been published: the files are those of a parked candidate
      exact reaches_bind (reaches_pure now (parked_restores injective distinct fits replaced))
    | some secret =>
      refine reaches_bind (reaches_bind (reaches_remove candidate now (.restored replaced) ?_))
      exact reaches_pure (.restored replaced) (reaches_pure (.restored replaced)
        ⟨rfl, by rw [replaced]; rfl⟩)
  | @parked old replaced =>
    have now := Interrupted.parked replaced
    refine reaches_rollback classify_missing candidate (classify_old injective replaced) now ?_
    exact reaches_bind (reaches_pure now (parked_restores injective distinct fits replaced))
  | @published old replaced =>
    have now := Interrupted.published replaced
    refine reaches_rollback candidate classify_missing (classify_old injective replaced) now ?_
    refine reaches_bind (reaches_pure now ?_)
    refine reaches_bind (reaches_move rfl rfl now (.parked replaced) ?_)
    exact parked_restores injective distinct fits replaced
  | @restored old replaced =>
    have now := Interrupted.restored replaced
    refine reaches_rollback (classify_old injective replaced) classify_missing classify_missing now ?_
    cases old with
    | none => exact reaches_bind (reaches_pure now (aside_restores injective fits replaced))
    | some secret =>
      refine reaches_bind (reaches_pure now ?_)
      refine reaches_bind (reaches_move rfl rfl now (.aside replaced) ?_)
      exact aside_restores injective fits replaced
  | @aside old replaced =>
    have now := Interrupted.aside replaced
    refine reaches_rollback classify_missing (classify_old injective replaced) classify_missing now ?_
    exact reaches_bind (reaches_pure now (aside_restores injective fits replaced))

/-! ## Publishing and cleaning up -/

/-- The candidate is in place and the prior secret parked, unless it may not be
replaced. -/
def Published (publication : Publication) (overwriteAuthorized : Bool)
    (result : Except SecureFileError Bool) (files : SecretFiles) : Prop :=
  if publication.prior.isSome ∧ overwriteAuthorized = false then
    result = .error .overwriteRequired ∧ files = publication.staged
  else
    result = .ok publication.prior.isSome ∧
      files = ⟨some publication.candidate, none, publication.prior⟩

omit distinct in
theorem publish_reaches (overwriteAuthorized : Bool) :
    Reaches publication.Interrupted (publication.publish hmac overwriteAuthorized)
      publication.staged (publication.Published overwriteAuthorized) := by
  have verified := attested_verifies injective (candidate_attested hmac publication)
  have now : publication.Interrupted publication.staged := .staged rfl
  unfold publish publishOwnerOnlySecretFile
  refine reaches_bind (reaches_reads now ?_)
  simp only [Onward, staged, verified]
  cases replaced : publication.prior with
  | none =>
    have now := Interrupted.staged replaced
    have done := Interrupted.published replaced
    simp only [Option.isSome_none, Bool.false_eq_true, false_and, if_false, not_false_eq_true,
      if_true]
    refine reaches_bind (reaches_move rfl rfl now done ?_)
    refine reaches_bind (reaches_reads done ?_)
    simp only [Onward, SecretFiles.put, verified]
    exact reaches_pure done (by simp [Published, replaced])
  | some secret =>
    have now := Interrupted.staged replaced
    simp only [Option.isSome_some, true_and, Bool.not_eq_true, not_true_eq_false, if_false]
    split
    · rename_i refused
      exact reaches_fail now (by simp [Published, staged, replaced, refused])
    · rename_i authorized
      have parked := Interrupted.parked replaced
      have done := Interrupted.published replaced
      have matched := attested_matches injective (prior_attested hmac replaced)
        (publication.priorBounded secret replaced)
      simp only [priorEvidence, replaced, Option.map_some]
      refine reaches_bind (reaches_move rfl rfl now parked ?_)
      refine reaches_bind (reaches_reads parked ?_)
      simp only [Onward, SecretFiles.put, matched, decide_true]
      refine reaches_bind (reaches_move rfl rfl parked done ?_)
      refine reaches_bind (reaches_reads done ?_)
      simp only [Onward, SecretFiles.put, verified]
      exact reaches_pure done (by simp [Published, replaced, authorized])

omit distinct in
/-- After a publication the cleanup removes the prior secret. -/
theorem cleanup_cleans : Reaches (fun _ => True) (publication.cleanup hmac)
    ⟨some publication.candidate, none, publication.prior⟩
    fun result files => result = .ok () ∧ files = ⟨some publication.candidate, none, none⟩ := by
  refine reaches_bind (reaches_reads trivial ?_)
  refine reaches_bind (reaches_cleanupArtifact rfl (by simp) trivial trivial ?_)
  refine reaches_cleanupArtifact rfl ?_ trivial trivial ⟨rfl, rfl⟩
  intro secret (replaced : publication.prior = some secret)
  refine ⟨_, ?_, attested_verifies injective (prior_attested hmac replaced)⟩
  rw [priorEvidence, replaced, Option.map_some]

omit distinct in
theorem foreign_content (notCandidate : content ≠ publication.candidate)
    (notPrior : ∀ secret, publication.prior = some secret → content ≠ secret) :
    Foreign hmac (publication.candidateEvidence hmac) (publication.priorEvidence hmac) content := by
  have isCandidate : ∀ {same}, secretDigestMatches hmac (some content)
      (publication.candidateEvidence hmac) = .ok same → same = false :=
    attested_other injective (candidate_attested hmac publication) notCandidate
  intro kind found
  unfold classifySecretArtifact priorEvidence at found
  cases replaced : publication.prior with
  | none =>
    simp only [replaced, Option.map_none, except_bind_ok, Except.ok.injEq, exists_eq_left',
      Bool.false_eq_true, if_false] at found
    obtain ⟨same, matched, told⟩ := found
    simpa [isCandidate matched, pure, Except.pure] using told.symm
  | some secret =>
    simp only [replaced, Option.map_some, except_bind_ok] at found
    obtain ⟨same, matched, told⟩ := found
    have isPrior : same = false :=
      attested_other injective (prior_attested hmac replaced) (notPrior secret replaced) matched
    simp only [isPrior, Bool.false_eq_true, if_false, except_bind_ok] at told
    obtain ⟨same, matched, told⟩ := told
    simpa [isCandidate matched, pure, Except.pure] using told.symm

end Publication

/-- Wherever a publication crashes, and however often its rollback does, a rollback that
comes to its end restores what was there. A publication that comes to its end leaves the
candidate, alone once it has been cleaned up. Neither removes other bytes. -/
theorem secret_publication_crash_atomic {Digest : Type} [DecidableEq Digest]
    (hmac : Bytes → Bytes → Digest) (injective : ∀ key, Function.Injective (hmac key))
    (publication : Publication) (distinct : publication.prior ≠ some publication.candidate)
    (overwriteAuthorized : Bool) :
    let publish := (publication.publish hmac overwriteAuthorized).run publication.staged
    let rollbacks := fun program => ∃ overwritten, (publication.prior = none → overwritten = false) ∧
      program = publication.rollback hmac overwritten
    (∀ crash ∈ publish.cuts, ∀ left, Restarts rollbacks crash left → ∀ program, rollbacks program →
      (program.run left).result = .ok () ∧
        (program.run left).state = ⟨publication.prior, none, none⟩) ∧
    ((publication.prior.isSome → overwriteAuthorized = true) →
      publish.result = .ok publication.prior.isSome) ∧
    (∀ overwritten, publish.result = .ok overwritten →
      let cleanup := (publication.cleanup hmac).run publish.state
      cleanup.result = .ok () ∧ cleanup.state = ⟨some publication.candidate, none, none⟩) ∧
    ∀ content, content ≠ publication.candidate → publication.prior ≠ some content →
      (∀ overwritten, Spares content (publication.rollback hmac overwritten)) ∧
        Spares content (publication.cleanup hmac) := by
  intro publish rollbacks
  obtain ⟨cuts, ends⟩ := publication.publish_reaches injective overwriteAuthorized
  refine ⟨?_, ?_, ?_, ?_⟩
  · rintro crash among left restarts _ ⟨overwritten, fits, rfl⟩
    have interrupted : publication.Interrupted left := by
      refine restarts_keep ?_ (cuts crash among) restarts
      rintro _ ⟨overwritten, fits, rfl⟩ files interrupted
      exact (publication.rollback_restores injective distinct fits interrupted).cuts
    exact (publication.rollback_restores injective distinct fits interrupted).ends
  · intro authorized
    have may : ¬(publication.prior.isSome ∧ overwriteAuthorized = false) := by
      rintro ⟨replaced, refused⟩
      rw [authorized replaced] at refused
      cases refused
    rw [Publication.Published, if_neg may] at ends
    exact ends.1
  · intro overwritten told
    have published : publish.state = ⟨some publication.candidate, none, publication.prior⟩ := by
      unfold Publication.Published at ends
      split at ends
      · cases ends.1.symm.trans told
      · exact ends.2
    rw [published]
    exact (publication.cleanup_cleans injective).ends
  · intro content notCandidate notPrior
    have notReplaced : ∀ secret, publication.prior = some secret → content ≠ secret := by
      rintro _ replaced rfl
      exact notPrior replaced
    refine ⟨?_, ?_⟩
    · intro overwritten n
      rw [Publication.rollback_eq]
      exact keeps_onError (spares_rollbackWith
        (publication.foreign_content injective notCandidate notReplaced) overwritten n)
    · refine spares_cleanup ?_ ?_
      · rintro _ ⟨⟩
        exact attested_refuses injective (publication.candidate_attested hmac) notCandidate
      · intro evidence among
        obtain ⟨secret, replaced, rfl⟩ := Option.map_eq_some_iff.mp among
        exact attested_refuses injective (Publication.prior_attested hmac replaced)
          (notReplaced secret replaced)

/-- A secret replaces another. -/
def samplePublication : Publication where
  candidate := [2]
  prior := some [1]
  candidateKey := [7]
  priorKey := [8]
  candidateKeyed := by decide
  priorKeyed := by decide
  candidateBounded := by decide
  priorBounded := by simp [maxSecretFileBytes]

theorem secret_publication_crash_atomic_parked :
    let files : SecretFiles := ⟨none, some [2], some [1]⟩
    files ∈ ((samplePublication.publish (fun _ secret => secret) true).run
      samplePublication.staged).cuts ∧
    ((samplePublication.rollback (fun _ secret => secret) true).run files).result = .ok () ∧
    ((samplePublication.rollback (fun _ secret => secret) true).run files).state =
      ⟨some [1], none, none⟩ := by
  have atomic := secret_publication_crash_atomic (fun _ secret => secret) (fun _ _ _ same => same)
    samplePublication (by decide) true
  have parked : (⟨none, some [2], some [1]⟩ : SecretFiles) ∈
      ((samplePublication.publish (fun _ secret => secret) true).run
        samplePublication.staged).cuts := by decide
  have restored := atomic.1 _ parked _ .refl _ ⟨true, nofun, rfl⟩
  exact ⟨parked, restored.1, restored.2⟩

end Satelle.SecretPublication
