import Satelle.Host.ProvisioningJournal
import Satelle.StoreRows

/-! What the calls of a provisioning do to its journal, record, lease and authorization.
Every transaction that succeeds makes one of the changes listed here. -/
namespace Satelle.JournalChanges
open Satelle.Core Lib Host

abbrev Leases := Table ControlLeaseRow ControlLeaseRow.key

section
variable {sha256 : Sha256} {codec : TimeCodec} {store after : ProvisioningStore}
  {row : ProvisioningJournalRow} {journal : ProviderSecretProvisioningJournal}
  {operationId : String}

/-! ## Rows that load -/

/-- What `load_journal` checks. -/
structure Sound (sha256 : Sha256) (leases : Leases) (row : ProvisioningJournalRow) : Prop where
  file : row.authSource.isFile row.destinationPath = true
  digest : (row.binding sha256).bindingDigest = row.candidateBindingDigest
  operation : isPrivateReference row.operationId = true
  host : validateReference row.hostIdentityRef = .ok ()
  desktop : validateReference row.desktopBindingRef = .ok ()
  probe : isPrivateReference row.providerProbeRef = true
  paths : validateOperationPaths sha256 row.operationId (.ofText row.destinationPath)
    (.ofText row.stagedPath) (row.backupPath.map PathName.ofText) = .ok ()
  shaped : row.shaped = true
  candidate : isRequestDigest row.candidateSecretHmac = true
  prior : row.priorSecretHmac.all isRequestDigest = true
  leased : leases.rows.countP row.leasedBy = 1

/-- The journal is the row, read. -/
structure Loaded (sha256 : Sha256) (row : ProvisioningJournalRow)
    (journal : ProviderSecretProvisioningJournal) : Prop where
  operationId : journal.operationId.text = row.operationId
  hostIdentity : journal.hostIdentity.text = row.hostIdentityRef
  desktopBinding : journal.desktopBinding.text = row.desktopBindingRef
  providerProbeRef : journal.providerProbeRef.text = row.providerProbeRef
  binding : journal.binding = row.binding sha256
  destinationPath : journal.destinationPath = row.destinationPath
  stagedPath : journal.stagedPath = row.stagedPath
  backupPath : journal.backupPath = row.backupPath
  destinationExisted : journal.destinationExisted = row.destinationExisted
  expected : journal.expectedPreviousBindingDigest = row.expectedPreviousBindingDigest
  candidateSecretHmac : journal.candidateSecretHmac = row.candidateSecretHmac
  priorSecretHmac : journal.priorSecretHmac = row.priorSecretHmac
  phase : journal.phase = row.phase

theorem orBroken_ok : orBroken result = .ok a ↔ result = .ok a := mapError_ok

theorem reference_ok :
    validatedPrivateReference value = .ok reference ↔ reference.text = value := by
  unfold validatedPrivateReference
  constructor
  · intro made
    split at made
    · cases made
      rfl
    · cases made
  · rintro rfl
    rw [dif_pos reference.valid]

theorem newReference_ok :
    Reference.new value = .ok reference ↔ reference.text = value := by
  constructor
  · intro made
    unfold Reference.new at made
    split at made
    · cases made
      rfl
    · cases made
  · rintro rfl
    exact Reference.new_text reference

theorem loadJournal_ok : loadJournal sha256 store operationId = .ok journal ↔
    ∃ row, store.journals.lookup operationId = some row ∧
      Sound sha256 store.database.controlLeases row ∧ Loaded sha256 row journal := by
  unfold loadJournal
  simp only [except_bind_ok, ensure_ok, orFail_ok, orBroken_ok, reference_ok, newReference_ok,
    exists_const, except_pure_ok]
  constructor
  · rintro ⟨row, found, file, digest, reference, isReference, host, isHost, desktop, isDesktop,
      probe, isProbe, _, paths, shaped, hmacs, leased, rfl⟩
    exact ⟨row, found, ⟨file, digest, isReference ▸ reference.valid, isHost ▸ host.valid,
      isDesktop ▸ desktop.valid, isProbe ▸ probe.valid, paths, shaped, hmacs.1, hmacs.2, leased⟩,
      ⟨isReference, isHost, isDesktop, isProbe, rfl, rfl, rfl, rfl, rfl, rfl, rfl, rfl, rfl⟩⟩
  · rintro ⟨row, found, sound, loaded⟩
    refine ⟨row, found, sound.file, sound.digest, _, loaded.operationId, _, loaded.hostIdentity, _,
      loaded.desktopBinding, _, loaded.providerProbeRef, (), sound.paths, sound.shaped,
      ⟨sound.candidate, sound.prior⟩, sound.leased, ?_⟩
    obtain ⟨_, _, _, _, binding, destination, staged, backup, existed, expected, candidate, prior,
      phase⟩ := loaded
    cases journal
    simp_all

/-- A sound row loads. -/
theorem loads (found : store.journals.lookup operationId = some row)
    (sound : Sound sha256 store.database.controlLeases row) :
    ∃ journal, loadJournal sha256 store operationId = .ok journal :=
  ⟨{ operationId := ⟨row.operationId, sound.operation⟩
     hostIdentity := ⟨row.hostIdentityRef, sound.host⟩
     desktopBinding := ⟨row.desktopBindingRef, sound.desktop⟩
     providerProbeRef := ⟨row.providerProbeRef, sound.probe⟩
     binding := row.binding sha256
     destinationPath := row.destinationPath
     stagedPath := row.stagedPath
     backupPath := row.backupPath
     destinationExisted := row.destinationExisted
     expectedPreviousBindingDigest := row.expectedPreviousBindingDigest
     candidateSecretHmac := row.candidateSecretHmac
     priorSecretHmac := row.priorSecretHmac
     phase := row.phase },
    loadJournal_ok.mpr ⟨row, found, sound, ⟨rfl, rfl, rfl, rfl, rfl, rfl, rfl, rfl, rfl, rfl, rfl,
      rfl, rfl⟩⟩⟩

/-! ## Paths -/

theorem new_some :
    OwnerOnlySecretFilePaths.new destination journalId = some paths ↔
      OwnerOnlySecretFilePaths.isJournalId journalId = true ∧
      ∃ parent name, destination.parent = some parent ∧ destination.fileName = some name ∧
        paths = ⟨destination,
          parent.join (OwnerOnlySecretFilePaths.siblingName name journalId ".staged".toList),
          parent.join (OwnerOnlySecretFilePaths.siblingName name journalId ".backup".toList)⟩ := by
  unfold OwnerOnlySecretFilePaths.new
  simp only [guard, Option.bind_eq_bind, Option.bind_eq_some_iff, pure, Option.some.injEq]
  constructor
  · rintro ⟨_, checked, parent, isParent, name, isName, rfl⟩
    split at checked
    · exact ⟨‹_›, parent, name, isParent, isName, rfl⟩
    · cases checked
  · rintro ⟨valid, parent, name, isParent, isName, rfl⟩
    exact ⟨(), if_pos valid, parent, isParent, name, isName, rfl⟩

theorem staged_backup
    (paths : validateOperationPaths sha256 operationId destination staged none = .ok ())
    (valid : validateStagedPaths destination staged backup = .ok ()) :
    validateOperationPaths sha256 operationId destination staged (some backup) = .ok () := by
  unfold validateOperationPaths providerSecretFilePaths at paths ⊢
  unfold validateStagedPaths at valid
  simp only [except_bind_ok, ensure_ok, orFail_ok] at paths valid ⊢
  obtain ⟨_, planned, own, made, staging, _⟩ := paths
  obtain ⟨_, _, read, found, _, _, _, _, isBackup⟩ := valid
  simp only [OwnerOnlySecretFilePaths.fromStagedPath, guard, Option.bind_eq_bind,
    Option.bind_eq_some_iff, pure, Option.some.injEq] at found
  obtain ⟨_, _, _, _, _, _, _, _, journalId, _, made', other, _, alike, rfl⟩ := found
  refine ⟨(), planned, own, made, staging, ?_⟩
  split at alike
  · rename_i isStaging
    -- the paths of a journal are known by the staging path
    have same := staging.trans isStaging.symm
    obtain ⟨_, parent, name, isParent, isName, rfl⟩ := new_some.mp made
    obtain ⟨_, _, _, again, isAlso, rfl⟩ := new_some.mp other
    cases isParent.symm.trans again
    cases isName.symm.trans isAlso
    simp only [PathName.join, OwnerOnlySecretFilePaths.siblingName, PathName.mk.injEq, true_and,
      List.append_cancel_left_eq, List.cons.injEq, and_true, List.append_cancel_right_eq] at same
    rw [same]
    simp [isBackup]
  · cases alike

end

/-! ## Changes -/

/-- The table with the row under a key replaced. -/
def Replaced (before after : Table ProvisioningJournalRow (·.operationId)) (operationId : String)
    (row : ProvisioningJournalRow) : Prop :=
  ∀ other, after.lookup other = if other = operationId then some row else before.lookup other

/-- A record, a lease and a journal are claimed together. -/
structure Claimed (sha256 : Sha256) (store after : ProvisioningStore)
    (row : ProvisioningJournalRow) (record : IdempotencyRow) (lease : ControlLeaseRow) : Prop where
  planned : row.phase = .planned
  pending : isPendingProvisioning row.operationId record = true
  fresh : ∀ other ∈ store.database.idempotencyRecords.rows,
    other.operation = "provider_secret_provisioning" → other.operationId ≠ row.operationId
  recorded : store.database.idempotencyRecords.insert record = some after.database.idempotencyRecords
  leasing : row.leasedBy lease = true
  leased : store.database.controlLeases.insert lease = some after.database.controlLeases
  journaled : store.journals.insert row = some after.journals
  sound : Sound sha256 after.database.controlLeases row
  results : after.resultJson = store.resultJson
  bindings : after.authorizedProviderBindings = store.authorizedProviderBindings

/-- The record as a finish leaves it. -/
def ended (operationId outcome completedAt : String) (record : IdempotencyRow) : IdempotencyRow :=
  patch (isPendingProvisioning operationId) (fun record => { record with
    status := "terminal"
    durableOutcome := outcome
    completedAt := some completedAt }) record

/-- The phases from which a provisioning ends with this outcome. -/
def Ends (outcome : String) (phase : ProviderSecretProvisioningPhase) : Prop :=
  outcome = completedOutcome ∧ phase = .committed ∨
    outcome = failedOutcome ∧ (phase = .planned ∨ phase = .rollbackPending)

/-- The record of an operation ends, and its lease and its journal go. -/
structure Finished (store after : ProvisioningStore) (operationId outcome completedAt : String)
    (row : ProvisioningJournalRow) : Prop where
  found : store.journals.lookup operationId = some row
  ends : Ends outcome row.phase
  records : after.database.idempotencyRecords.rows =
    store.database.idempotencyRecords.rows.map (ended operationId outcome completedAt)
  leased : store.database.controlLeases.deleteOne (fun lease =>
    lease.operationId = operationId && lease.ownerKind = "provider_probe" &&
      lease.providerProbeRef = some row.providerProbeRef) = some after.database.controlLeases
  journaled : store.journals.deleteOne (·.operationId = operationId) = some after.journals
  results : ∃ replay, ∀ key, after.resultJson key =
    if store.database.idempotencyRecords.rows.any
      (fun record => isPendingProvisioning operationId record && record.key = key) then some replay
    else store.resultJson key
  bindings : after.authorizedProviderBindings = store.authorizedProviderBindings

inductive Change (sha256 : Sha256) (store : ProvisioningStore) : ProvisioningStore → Prop where
  | same : Change sha256 store store
  | claims (claimed : Claimed sha256 store after row record lease) : Change sha256 store after
  /-- A journal is staged, or moves between the later phases. -/
  | replaces (found : store.journals.lookup operationId = some row)
      (sound : Sound sha256 store.database.controlLeases row →
        Sound sha256 store.database.controlLeases changed)
      (sameLease : changed.leasedBy = row.leasedBy) (before : row.phase ≠ .committed)
      (after : changed.phase ≠ .committed)
      (made : Replaced store.journals journals operationId changed) :
      Change sha256 store { store with journals := journals }
  | commits (found : store.journals.lookup operationId = some row)
      (publishing : row.phase = .publishIntent)
      (digest : written.bindingDigest = row.candidateBindingDigest)
      (desktop : written.desktopBindingRef = row.desktopBindingRef)
      (made : Replaced store.journals journals operationId
        { row with phase := .committed, updatedAt := updatedAt }) :
      Change sha256 store { store with
        journals := journals
        authorizedProviderBindings := upsertBinding store.authorizedProviderBindings written }
  | finishes (finished : Finished store after operationId outcome completedAt row) :
      Change sha256 store after

section
variable {sha256 : Sha256} {codec : TimeCodec} {store after : ProvisioningStore}
  {operationId : String}

private theorem updateJournal_made (ran : updateJournal store p f keeps = .ok after)
    (keyed : ∀ row, p row = true → row.operationId = operationId) :
    ∃ row journals, store.journals.lookup operationId = some row ∧ p row = true ∧
      Replaced store.journals journals operationId (f row) ∧
      after = { store with journals := journals } := by
  unfold updateJournal at ran
  simp only [except_bind_ok, ensure_ok, orFail_ok, exists_const, except_pure_ok] at ran
  obtain ⟨_, journals, updated, rfl⟩ := ran
  obtain ⟨row, found, hit, made⟩ := Table.updateOne_made updated keyed
  exact ⟨row, journals, found, hit, made, rfl⟩

theorem updatePhase_made (ran : updatePhase codec store operationId expected next time = .ok after) :
    ∃ row journals updatedAt, store.journals.lookup operationId = some row ∧ row.phase = expected ∧
      Replaced store.journals journals operationId
        { row with phase := next, updatedAt := updatedAt } ∧
      after = { store with journals := journals } := by
  unfold updatePhase at ran
  obtain ⟨updatedAt, _, ran⟩ := except_bind_ok.mp ran
  obtain ⟨row, journals, found, hit, made, rfl⟩ := updateJournal_made ran (by
    intro row hit
    simp only [Bool.and_eq_true, decide_eq_true_eq] at hit
    exact hit.1)
  simp only [Bool.and_eq_true, decide_eq_true_eq] at hit
  exact ⟨row, journals, updatedAt, found, hit.2, made, rfl⟩

/-- A move between phases after `planned` asks for nothing new. -/
theorem moved_sound (updatedAt : String)
    (sound : Sound sha256 leases row) (moved : row.phase ≠ .planned) (staged : next ≠ .planned) :
    Sound sha256 leases { row with phase := next, updatedAt := updatedAt } := by
  refine { sound with shaped := ?_ }
  have shaped := sound.shaped
  unfold ProvisioningJournalRow.shaped at shaped ⊢
  cases next with
  | planned => exact absurd rfl staged
  | staged | validated | publishIntent | committed | rollbackPending =>
    split at shaped <;> simp_all

theorem transition_change (ran : transitionProviderSecretProvisioning codec store operationId
    expected next time = .ok after) (direct : ¬(expected = .planned ∧ next = .staged)) :
    Change sha256 store after := by
  unfold transitionProviderSecretProvisioning at ran
  simp only [except_bind_ok, ensure_ok, exists_const] at ran
  obtain ⟨permitted, ran⟩ := ran
  obtain ⟨row, journals, _, found, rfl, made, rfl⟩ := updatePhase_made ran
  have unstaged : next ≠ .staged := by
    rintro rfl
    cases phase : row.phase <;> simp_all [ProviderSecretProvisioningPhase.permits]
  obtain ⟨moved, before, staged, after⟩ : row.phase ≠ .planned ∧ row.phase ≠ .committed ∧
      next ≠ .planned ∧ next ≠ .committed := by
    cases phase : row.phase <;> cases next <;> simp_all [ProviderSecretProvisioningPhase.permits]
  exact .replaces found (fun sound => moved_sound _ sound moved staged) rfl before after made

theorem stage_change (ran : recordStagedProviderSecret sha256 codec store operationId existed backup
    prior time = .ok after) : Change sha256 store after := by
  unfold recordStagedProviderSecret at ran
  simp only [except_bind_ok, ensure_ok, exists_const] at ran
  obtain ⟨priorHmac, journal, read, ⟨planned, hasBackup, hasPrior⟩, _, valid, updatedAt, _, _,
    ran⟩ := ran
  obtain ⟨row, found, sound, loaded⟩ := loadJournal_ok.mp read
  rw [loaded.phase] at planned
  rw [loaded.destinationPath, loaded.stagedPath] at valid
  obtain ⟨_, journals, again, hit, made, rfl⟩ := updateJournal_made ran (by
    intro row hit
    simp only [Bool.and_eq_true, decide_eq_true_eq] at hit
    exact hit.1.1.1.1)
  cases found.symm.trans again
  refine .replaces found (fun _ => ?_) (by rfl) (by simp [planned]) (by simp) made
  have unset : row.backupPath = none := by
    have shaped := sound.shaped
    unfold ProvisioningJournalRow.shaped at shaped
    rw [planned] at shaped
    split at shaped <;> simp_all
  have paths := sound.paths
  rw [unset] at paths
  refine { sound with paths := ?_, shaped := ?_, prior := priorHmac }
  · cases backup with
    | none => exact paths
    | some path => exact staged_backup paths valid
  · cases backup with
    | none =>
      subst hasBackup
      cases prior with
      | none => rfl
      | some hmac => cases hasPrior
    | some path =>
      subst hasBackup
      cases prior with
      | none => cases hasPrior
      | some hmac =>
        simp only [validateBackup] at valid
        simp [ProvisioningJournalRow.shaped, valid, Except.toBool]

theorem commit_change (ran : commitProviderSecretProvisioning sha256 codec store operationId binding
    key provider evidence time = .ok after) : Change sha256 store after := by
  unfold commitProviderSecretProvisioning at ran
  simp only [except_bind_ok, ensure_ok, exists_const] at ran
  obtain ⟨journal, read, ⟨publishing, digest, _⟩, _, _, _, authorized, _, _, ran⟩ := ran
  obtain ⟨row, found, sound, loaded⟩ := loadJournal_ok.mp read
  unfold authorizeProviderBinding at authorized
  simp only [except_bind_ok, ensure_ok, exists_const, except_pure_ok] at authorized
  obtain ⟨_, text, _, _, rfl⟩ := authorized
  obtain ⟨_, journals, _, again, _, made, rfl⟩ := updatePhase_made ran
  cases found.symm.trans again
  have sameDigest : (authorizedRow journal.desktopBinding binding text).bindingDigest =
      row.candidateBindingDigest := by
    rw [← sound.digest, ← loaded.binding, digest]
    rfl
  have sameDesktop : (authorizedRow journal.desktopBinding binding text).desktopBindingRef =
      row.desktopBindingRef := loaded.desktopBinding
  exact .commits found (loaded.phase.symm.trans publishing) sameDigest sameDesktop made

theorem terminalize_change
    (found : store.journals.lookup operationId = some row) (ends : Ends outcome row.phase)
    (ran : terminalize codec store operationId outcome replay row.providerProbeRef time = .ok after) :
    Change sha256 store after := by
  unfold terminalize at ran
  simp only [except_bind_ok, orFail_ok, except_pure_ok] at ran
  obtain ⟨completedAt, _, records, recorded, leases, leased, journals, journaled, rfl⟩ := ran
  obtain ⟨_, rfl⟩ := Table.updateOne_eq_some.mp recorded
  exact .finishes ⟨found, ends, rfl, leased, journaled, ⟨replay, fun _ => rfl⟩, rfl⟩

theorem success_change (ran : finishProviderSecretProvisioningSuccess sha256 codec store operationId
    time = .ok (replay, after)) : Change sha256 store after := by
  unfold finishProviderSecretProvisioningSuccess at ran
  simp only [except_bind_ok, ensure_ok, exists_const, except_pure_ok, Prod.mk.injEq] at ran
  obtain ⟨journal, loadedOk, committed, _, ended, _, rfl⟩ := ran
  obtain ⟨row, found, sound, loaded⟩ := loadJournal_ok.mp loadedOk
  rw [loaded.providerProbeRef] at ended
  exact terminalize_change found (.inl ⟨rfl, loaded.phase.symm.trans committed⟩) ended

theorem failure_change (ran : finishProviderSecretProvisioningFailure sha256 codec store operationId
    error time = .ok (replay, after)) : Change sha256 store after := by
  unfold finishProviderSecretProvisioningFailure at ran
  simp only [except_bind_ok, ensure_ok, exists_const, except_pure_ok, Prod.mk.injEq] at ran
  obtain ⟨journal, loadedOk, undone, _, ended, _, rfl⟩ := ran
  obtain ⟨row, found, sound, loaded⟩ := loadJournal_ok.mp loadedOk
  rw [loaded.providerProbeRef] at ended
  rw [loaded.phase] at undone
  exact terminalize_change found (.inr ⟨rfl, undone⟩) ended

theorem begin_change (ran : beginProviderSecretProvisioning sha256 codec store input key owner plan
    now = .ok (answer, after)) : Change sha256 store after := by
  unfold beginProviderSecretProvisioning at ran
  simp only [except_bind_ok, ensure_ok, exists_const] at ran
  obtain ⟨_, isProvisioning, _, _, ⟨sameId, _⟩, found, _, ran⟩ := ran
  have token : idempotentOperationToken input.operation = "provider_secret_provisioning" := by
    rw [ensure_ok.mp isProvisioning]
    rfl
  cases found with
  | some record =>
    simp only [except_bind_ok, except_pure_ok, Prod.mk.injEq] at ran
    obtain ⟨_, _, _, rfl⟩ := ran
    exact .same
  | none =>
    simp only [except_bind_ok, except_pure_ok, Prod.mk.injEq] at ran
    obtain ⟨_, _, _, recorded, _, leased, _, _, claimed, journaled, journal, read, _, rfl⟩ := ran
    unfold insertProvisioningRecord at recorded
    unfold insertProviderProbeLease at leased
    unfold insertJournal at journaled
    simp only [except_bind_ok, ensure_ok, orFail_ok, exists_const, except_pure_ok]
      at recorded leased journaled
    obtain ⟨_, _, _, _, _, free, records, recorded, rfl⟩ := recorded
    obtain ⟨_, _, _, leases, leased, rfl⟩ := leased
    obtain ⟨_, _, _, _, _, _, journals, journaled, rfl⟩ := journaled
    obtain ⟨row, found, sound, _⟩ := loadJournal_ok.mp read
    have inserted := Table.lookup_insert journaled input.operationId.text
    rw [found] at inserted
    simp only [↓reduceIte, Option.some.injEq] at inserted
    subst inserted
    refine .claims ⟨rfl, ?_, ?_, recorded, ?_, leased, journaled, sound, rfl, rfl⟩
    · simp [isPendingProvisioning, token]
    · intro other member provisioning same
      have differs := List.all_eq_true.mp free other member
      simp [same, provisioning, token] at differs
    · simp [ProvisioningJournalRow.leasedBy, sameId]

/-- The call writes `staged` without what the phase needs. -/
def stagesBare : ProvisioningCall → Bool
  | .transition _ .planned .staged _ => true
  | _ => false

theorem serve_change (direct : stagesBare call = false) :
    Change sha256 store (serveProvisioning sha256 codec store call).2 := by
  cases call with
  | begin =>
    refine transact_keeps (Change sha256 store) .same fun value after ran => ?_
    obtain ⟨plan, _, ran⟩ := except_bind_ok.mp ran
    exact begin_change ran
  | recordStaged => exact transact_unit_keeps (Change sha256 store) .same fun _ ran => stage_change ran
  | transition operationId expected next time =>
    refine transact_unit_keeps (Change sha256 store) .same fun _ ran => transition_change ran ?_
    rintro ⟨rfl, rfl⟩
    cases direct
  | markRollbackPending => exact transact_unit_keeps (Change sha256 store) .same fun _ ran => transition_change ran (by simp)
  | commit => exact transact_unit_keeps (Change sha256 store) .same fun _ ran => commit_change ran
  | finishSuccess => exact transact_keeps (Change sha256 store) .same fun _ _ ran => success_change ran
  | finishFailure => exact transact_keeps (Change sha256 store) .same fun _ _ ran => failure_change ran

end

end Satelle.JournalChanges
