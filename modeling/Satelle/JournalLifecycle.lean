import Satelle.JournalChanges
import Satelle.StoreRefinement

/-! The tables of provisionings stay in step. A journal is there while its record is in
progress and its lease is held; it loads whenever it is there; its phases lead to one of
the two outcomes, and only a committed journal has authorized its binding. A call touches
one operation, so each fact is proved of that operation and of the others apart. -/
namespace Satelle.JournalLifecycle
open Lib Host StoreRefinement JournalChanges

def isProvisioning (record : IdempotencyRow) : Prop :=
  record.operation = "provider_secret_provisioning"

/-- The records of an operation. -/
def recordsOf (store : ProvisioningStore) (id : String) : Set IdempotencyRow :=
  { record | record ∈ store.database.idempotencyRecords.rows ∧ isProvisioning record ∧
    record.operationId = id }

/-- What is stored of an operation: nothing, a journal with a record in progress, or a
record that has ended. -/
inductive Stage (sha256 : Sha256) (store : ProvisioningStore) (id : String) : Prop where
  | absent (journal : store.journals.lookup id = none) (records : recordsOf store id = ∅)
  | active (journal : store.journals.lookup id = some row)
      (sound : Sound sha256 store.database.controlLeases row)
      (records : recordsOf store id = {record}) (pending : isPendingProvisioning id record = true)
      (unset : store.resultJson record.key = none)
  | ended (journal : store.journals.lookup id = none) (records : recordsOf store id = {record})
      (terminal : record.status = "terminal")
      (outcome : record.durableOutcome = completedOutcome ∨ record.durableOutcome = failedOutcome)
      (set : store.resultJson record.key ≠ none)

structure Orderly (sha256 : Sha256) (start : Leases) (store : ProvisioningStore) : Prop where
  stages : ∀ id, Stage sha256 store id
  unset : ∀ key : String × String × String, key.2.1 = "provider_secret_provisioning" →
    (∀ record ∈ store.database.idempotencyRecords.rows, record.key ≠ key) →
    store.resultJson key = none
  leases : ∀ lease ∈ store.database.controlLeases.rows, lease.ownerKind = "provider_probe" →
    lease ∈ start.rows ∨ ∃ id row, store.journals.lookup id = some row ∧ row.leasedBy lease = true

/-- What is stored of the other operations stays. -/
structure Spares (store after : ProvisioningStore) (operationId : String) : Prop where
  journals : ∀ id, id ≠ operationId → after.journals.lookup id = store.journals.lookup id
  records : ∀ id, id ≠ operationId → recordsOf after id = recordsOf store id
  results : ∀ id, id ≠ operationId → ∀ record ∈ recordsOf store id,
    after.resultJson record.key = store.resultJson record.key
  leases : ∀ row : ProvisioningJournalRow, row.operationId ≠ operationId →
    after.database.controlLeases.rows.countP row.leasedBy =
      store.database.controlLeases.rows.countP row.leasedBy

section
variable {sha256 : Sha256} {start : Leases} {store after : ProvisioningStore}
  {row changed : ProvisioningJournalRow} {operationId id : String} {record : IdempotencyRow}
  {journals : Table ProvisioningJournalRow (·.operationId)}

theorem Stage.spared (stage : Stage sha256 store id) (spares : Spares store after operationId)
    (other : id ≠ operationId) : Stage sha256 after id := by
  have sameJournal := spares.journals id other
  have sameRecords := spares.records id other
  have sameResults := spares.results id other
  cases stage with
  | absent journal records => exact .absent (sameJournal.trans journal) (sameRecords.trans records)
  | @active row record journal sound records pending unset =>
    have keyed := (Table.lookup_eq_some.mp journal).2
    refine .active (sameJournal.trans journal)
      { sound with leased := (spares.leases row (keyed ▸ other)).trans sound.leased }
      (sameRecords.trans records) pending ?_
    rw [sameResults record (by simp [records]), unset]
  | @ended record journal records terminal outcome set =>
    refine .ended (sameJournal.trans journal) (sameRecords.trans records) terminal outcome ?_
    rwa [sameResults record (by simp [records])]

/-- The journal of an operation has a record in progress. -/
theorem Orderly.active (orderly : Orderly sha256 start store)
    (found : store.journals.lookup id = some row) :
    Sound sha256 store.database.controlLeases row ∧ ∃ record, recordsOf store id = {record} ∧
      isPendingProvisioning id record = true ∧ store.resultJson record.key = none := by
  cases orderly.stages id with
  | absent journal | ended journal => cases journal.symm.trans found
  | active journal sound records pending unset =>
    cases journal.symm.trans found
    exact ⟨sound, _, records, pending, unset⟩

theorem replaced_spares {bindings} (made : Replaced store.journals journals operationId changed) :
    Spares store { store with journals := journals, authorizedProviderBindings := bindings }
      operationId where
  journals := fun id other => (made id).trans (if_neg other)
  records := fun _ _ => rfl
  results := fun _ _ _ _ => rfl
  leases := fun _ _ => rfl

/-- A row is replaced by one with the same lease. -/
theorem replaced_orderly {bindings} (orderly : Orderly sha256 start store)
    (found : store.journals.lookup operationId = some row)
    (sound : Sound sha256 store.database.controlLeases row →
      Sound sha256 store.database.controlLeases changed)
    (sameLease : changed.leasedBy = row.leasedBy)
    (made : Replaced store.journals journals operationId changed) :
    Orderly sha256 start { store with
      journals := journals, authorizedProviderBindings := bindings } := by
  have here := (made operationId).trans (if_pos rfl)
  refine ⟨fun id => ?_, orderly.unset, fun lease member probe => ?_⟩
  · by_cases own : id = operationId
    · subst own
      obtain ⟨was, record, records, pending, unset⟩ := orderly.active found
      exact .active here (sound was) records pending unset
    · exact (orderly.stages id).spared (replaced_spares made) own
  · refine (orderly.leases lease member probe).imp_right ?_
    rintro ⟨id, other, there, leased⟩
    by_cases own : id = operationId
    · subst own
      cases found.symm.trans there
      exact ⟨id, changed, here, sameLease ▸ leased⟩
    · exact ⟨id, other, (made id).trans ((if_neg own).trans there), leased⟩

theorem pending_iff :
    isPendingProvisioning operationId record = true ↔ record.operationId = operationId ∧
      isProvisioning record ∧ record.status = "in_progress" ∧
      record.durableOutcome = pendingOutcome := by
  simp [isPendingProvisioning, isProvisioning, and_assoc]

theorem leasedBy_operation (leased : row.leasedBy lease = true) :
    lease.operationId = row.operationId ∧ lease.ownerKind = "provider_probe" ∧
      lease.providerProbeRef = some row.providerProbeRef := by
  simp only [ProvisioningJournalRow.leasedBy, Bool.and_eq_true, decide_eq_true_eq] at leased
  exact ⟨leased.1.1.1.1.1, leased.1.1.2, leased.1.2⟩

section
variable {lease : ControlLeaseRow} (claimed : Claimed sha256 store after row record lease)
include claimed

theorem claimed_records : recordsOf store row.operationId = ∅ ∧
    recordsOf after row.operationId = {record} := by
  obtain ⟨isId, provisioning, _⟩ := pending_iff.mp claimed.pending
  obtain ⟨_, rows⟩ := Table.insert_eq_some.mp claimed.recorded
  have none : recordsOf store row.operationId = ∅ := by
    refine Set.eq_empty_of_forall_notMem fun other ⟨member, isProvisioning, same⟩ => ?_
    exact claimed.fresh other member isProvisioning same
  refine ⟨none, ?_⟩
  ext other
  have absent : other ∉ recordsOf store row.operationId := none ▸ Set.notMem_empty other
  simp only [recordsOf, Set.mem_ofPred_eq, rows, List.mem_append, List.mem_singleton,
    Set.mem_singleton_iff] at absent ⊢
  constructor
  · rintro ⟨old | isNew, rest⟩
    · exact absurd ⟨old, rest⟩ absent
    · exact isNew
  · rintro rfl
    exact ⟨.inr rfl, provisioning, isId⟩

theorem claimed_spares : Spares store after row.operationId := by
  obtain ⟨isId, _⟩ := pending_iff.mp claimed.pending
  obtain ⟨_, rows⟩ := Table.insert_eq_some.mp claimed.recorded
  obtain ⟨_, leaseRows⟩ := Table.insert_eq_some.mp claimed.leased
  refine ⟨fun id other => ?_, fun id other => ?_, fun _ _ _ _ => by rw [claimed.results], ?_⟩
  · rw [Table.lookup_insert claimed.journaled, if_neg other.symm]
  · ext held
    simp only [recordsOf, Set.mem_ofPred_eq, rows, List.mem_append, List.mem_singleton]
    refine and_congr_left fun ⟨_, same⟩ => or_iff_left ?_
    rintro rfl
    exact other (same.symm.trans isId)
  · intro other ne
    have spared : other.leasedBy lease = false := by
      by_contra hit
      rw [Bool.not_eq_false] at hit
      exact ne ((leasedBy_operation hit).1.symm.trans (leasedBy_operation claimed.leasing).1)
    simp [leaseRows, List.countP_append, spared]

theorem claims_orderly (orderly : Orderly sha256 start store) : Orderly sha256 start after := by
  obtain ⟨isId, provisioning, _⟩ := pending_iff.mp claimed.pending
  obtain ⟨newKey, rows⟩ := Table.insert_eq_some.mp claimed.recorded
  obtain ⟨_, leaseRows⟩ := Table.insert_eq_some.mp claimed.leased
  have here : after.journals.lookup row.operationId = some row :=
    (Table.lookup_insert claimed.journaled _).trans (if_pos rfl)
  refine ⟨fun id => ?_, fun key isKey absent => ?_, fun other member probe => ?_⟩
  · by_cases own : id = row.operationId
    · subst own
      refine .active here claimed.sound (claimed_records claimed).2 claimed.pending ?_
      rw [claimed.results]
      refine orderly.unset _ provisioning fun other member same => ?_
      exact newKey (List.mem_map.mpr ⟨other, member, same⟩)
    · exact (orderly.stages id).spared (claimed_spares claimed) own
  · rw [claimed.results]
    exact orderly.unset key isKey fun other member => absent other (by simp [rows, member])
  · simp only [leaseRows, List.mem_append, List.mem_singleton] at member
    rcases member with old | rfl
    · refine (orderly.leases other old probe).imp_right ?_
      rintro ⟨id, held, there, hit⟩
      exact ⟨id, held, Table.lookup_insert_of_some claimed.journaled there, hit⟩
    · exact .inr ⟨row.operationId, row, here, claimed.leasing⟩

end

private theorem ended_other (other : isPendingProvisioning operationId record ≠ true) :
    ended operationId outcome completedAt record = record := by
  simp [ended, patch, other]

private theorem ended_pending (hit : isPendingProvisioning operationId record = true) :
    ended operationId outcome completedAt record = { record with
      status := "terminal", durableOutcome := outcome, completedAt := some completedAt } := by
  simp [ended, patch, hit]

/-- What a finish does not touch of a record. -/
private theorem ended_same :
    (ended operationId outcome completedAt record).operationId = record.operationId ∧
      (isProvisioning (ended operationId outcome completedAt record) ↔ isProvisioning record) ∧
      (ended operationId outcome completedAt record).key = record.key := by
  by_cases hit : isPendingProvisioning operationId record = true
  · rw [ended_pending hit]
    exact ⟨rfl, Iff.rfl, rfl⟩
  · rw [ended_other hit]
    exact ⟨rfl, Iff.rfl, rfl⟩

section
variable (finished : Finished store after operationId outcome completedAt row)
include finished

private theorem finished_removed : after.journals.lookup operationId = none := by
  obtain ⟨_, _, _, removed⟩ := Table.lookup_deleteOne finished.journaled
    (by intro row hit; exact of_decide_eq_true hit)
  exact removed

private theorem finished_records (id : String) :
    recordsOf after id = ended operationId outcome completedAt '' recordsOf store id := by
  ext record
  simp only [recordsOf, Set.mem_ofPred_eq, finished.records, List.mem_map, Set.mem_image]
  constructor
  · rintro ⟨⟨old, member, rfl⟩, provisioning, same⟩
    exact ⟨old, ⟨member, ended_same.2.1.mp provisioning, ended_same.1.symm.trans same⟩, rfl⟩
  · rintro ⟨old, ⟨member, provisioning, same⟩, rfl⟩
    exact ⟨⟨old, member, rfl⟩, ended_same.2.1.mpr provisioning, ended_same.1.trans same⟩

/-- Only the record that ends is given a result. -/
private theorem finished_result (unkeyed : ∀ record ∈ store.database.idempotencyRecords.rows,
    isPendingProvisioning operationId record = true → record.key ≠ key) :
    after.resultJson key = store.resultJson key := by
  obtain ⟨replay, results⟩ := finished.results
  rw [results, if_neg]
  simpa [List.any_eq_true] using unkeyed

private theorem finished_spares : Spares store after operationId := by
  have others : ∀ {id record}, id ≠ operationId → record ∈ recordsOf store id →
      isPendingProvisioning operationId record ≠ true :=
    fun other ⟨_, _, same⟩ hit => other (same.symm.trans (pending_iff.mp hit).1)
  obtain ⟨_, journals⟩ := Table.deleteOne_eq_some.mp finished.journaled
  obtain ⟨_, leases⟩ := Table.deleteOne_eq_some.mp finished.leased
  refine ⟨fun id other => ?_, fun id other => ?_, fun id other record held => ?_, fun row other => ?_⟩
  · rw [journals]
    refine Table.lookup_deleteWhere_spared ?_
    rintro row rfl
    simpa using other
  · rw [finished_records finished]
    refine (Set.image_congr fun record held => ?_).trans (Set.image_id _)
    exact ended_other (others other held)
  · refine finished_result finished fun pending member isPending sameKey => ?_
    exact others other held (Table.row_unique member held.1 sameKey ▸ isPending)
  · rw [leases]
    simp only [Table.deleteWhere, List.countP_filter]
    refine List.countP_congr fun lease _ => ?_
    simp only [Bool.and_eq_true, Bool.not_eq_true', and_iff_left_iff_imp]
    intro hit
    simp [(leasedBy_operation hit).1, other]

theorem finishes_orderly (orderly : Orderly sha256 start store) : Orderly sha256 start after := by
  obtain ⟨_, leases⟩ := Table.deleteOne_eq_some.mp finished.leased
  have spares := finished_spares finished
  refine ⟨fun id => ?_, fun key isKey absent => ?_, fun lease member probe => ?_⟩
  · by_cases own : id = operationId
    · subst own
      obtain ⟨_, record, records, pending, _⟩ := orderly.active finished.found
      have held : record ∈ recordsOf store id := by simp [records]
      have ended := finished_records finished id
      rw [records, Set.image_singleton, ended_pending pending] at ended
      refine .ended (finished_removed finished) ended rfl (finished.ends.imp And.left And.left) ?_
      obtain ⟨replay, results⟩ := finished.results
      rw [results, if_pos]
      · exact Option.some_ne_none _
      · exact List.any_eq_true.mpr ⟨record, held.1, by simp [pending, IdempotencyRow.key]⟩
    · exact (orderly.stages id).spared spares own
  · have unkeyed : ∀ record ∈ store.database.idempotencyRecords.rows, record.key ≠ key := by
      intro record member same
      refine absent (ended operationId outcome completedAt record) ?_ (ended_same.2.2.trans same)
      rw [finished.records]
      exact List.mem_map_of_mem member
    exact (finished_result finished fun record member _ => unkeyed record member).trans
      (orderly.unset key isKey unkeyed)
  · rw [leases] at member
    obtain ⟨inOld, spared⟩ := List.mem_filter.mp member
    refine (orderly.leases lease inOld probe).imp_right ?_
    rintro ⟨id, other, there, hit⟩
    have ne : id ≠ operationId := by
      rintro rfl
      cases finished.found.symm.trans there
      obtain ⟨owner, kind, ref⟩ := leasedBy_operation hit
      simp [owner, kind, ref, (Table.lookup_eq_some.mp finished.found).2] at spared
    exact ⟨id, other, (spares.journals id ne).trans there, hit⟩

end

theorem change_orderly (orderly : Orderly sha256 start store) (change : Change sha256 store after) :
    Orderly sha256 start after := by
  cases change with
  | same => exact orderly
  | claims claimed => exact claims_orderly claimed orderly
  | replaces found sound sameLease _ _ made => exact replaced_orderly orderly found sound sameLease made
  | commits found publishing _ _ made =>
    refine replaced_orderly orderly found (fun sound => ?_) ?_ made
    · exact moved_sound _ sound (by simp [publishing]) (by simp)
    · rfl
  | finishes finished => exact finishes_orderly finished orderly

/-! ## Phases -/

/-- The journals that a call moves to `committed`. -/
def reached (before after : ProvisioningStore) : List ProvisioningJournalRow :=
  after.journals.rows.filter fun row => row.phase = .committed &&
    (before.journals.lookup row.operationId).all (·.phase ≠ .committed)

/-- The journal of the operation has been committed, by what is stored. -/
def Reached (store : ProvisioningStore) (id : String) : Prop :=
  (∃ row, store.journals.lookup id = some row ∧ row.phase = .committed) ∨
    ∃ record ∈ store.database.idempotencyRecords.rows, isProvisioning record ∧
      record.operationId = id ∧ record.durableOutcome = completedOutcome

/-- The authorization is of the journal's binding, for its desktop. -/
def Authorizes (row : ProvisioningJournalRow) (written : AuthorizedProviderBindingRow) : Prop :=
  written.bindingDigest = row.candidateBindingDigest ∧
    written.desktopBindingRef = row.desktopBindingRef

/-- How one call moves the phases, with the authorizations that it writes. -/
structure Step (before after : ProvisioningStore) (written : List AuthorizedProviderBindingRow) :
    Prop where
  enters : ∀ id row, after.journals.lookup id = some row → row.phase = .committed →
    before.journals.lookup id = some row ∨
      ∃ old, before.journals.lookup id = some old ∧ old.phase = .publishIntent
  leaves : ∀ id row, before.journals.lookup id = some row → row.phase = .committed →
    after.journals.lookup id = some row ∨ after.journals.lookup id = none ∧ Reached after id
  matched : List.Forall₂ Authorizes (reached before after) written
  authorized : after.authorizedProviderBindings =
    written.foldl upsertBinding before.authorizedProviderBindings
  reaches : ∀ id, Reached after id ↔
    Reached before id ∨ id ∈ (reached before after).map (·.operationId)
  replays : ∀ record ∈ before.database.idempotencyRecords.rows, isProvisioning record →
    record.status ≠ "in_progress" → record ∈ after.database.idempotencyRecords.rows ∧
      after.resultJson record.key = before.resultJson record.key

theorem reached_iff : Reached store id ↔
    (∃ row, store.journals.lookup id = some row ∧ row.phase = .committed) ∨
      ∃ record ∈ recordsOf store id, record.durableOutcome = completedOutcome := by
  simp [Reached, recordsOf, and_assoc]

/-- While there is a journal, its phase decides. -/
theorem reached_active (journal : store.journals.lookup id = some row)
    (records : recordsOf store id = {record}) (pending : isPendingProvisioning id record = true) :
    Reached store id ↔ row.phase = .committed := by
  have unended : record.durableOutcome ≠ completedOutcome := by
    rw [(pending_iff.mp pending).2.2.2]
    decide
  simp [reached_iff, journal, records, unended]

theorem mem_reached : row ∈ reached store after ↔
    after.journals.lookup row.operationId = some row ∧ row.phase = .committed ∧
      ∀ old, store.journals.lookup row.operationId = some old → old.phase ≠ .committed := by
  rw [Table.lookup_eq_some, reached, List.mem_filter]
  cases store.journals.lookup row.operationId <;> simp

/-- A call on one operation, none of whose records has ended. -/
theorem Spares.step (spares : Spares store after operationId)
    (unended : ∀ record ∈ recordsOf store operationId, record.status = "in_progress")
    (enters : ∀ row, after.journals.lookup operationId = some row → row.phase = .committed →
      ∃ old, store.journals.lookup operationId = some old ∧ old.phase = .publishIntent)
    (leaves : ∀ row, store.journals.lookup operationId = some row → row.phase = .committed →
      after.journals.lookup operationId = none ∧ Reached after operationId)
    (reaches : Reached after operationId ↔ Reached store operationId ∨
      ∃ row, after.journals.lookup operationId = some row ∧ row.phase = .committed)
    (matched : List.Forall₂ Authorizes (reached store after) written)
    (authorized : after.authorizedProviderBindings =
      written.foldl upsertBinding store.authorizedProviderBindings) : Step store after written := by
  refine ⟨fun id row there committed => ?_, fun id row there committed => ?_, matched, authorized,
    fun id => ?_, fun record member provisioning ended => ?_⟩
  · by_cases own : id = operationId
    · subst own
      exact .inr (enters row there committed)
    · exact .inl ((spares.journals id own).symm.trans there)
  · by_cases own : id = operationId
    · subst own
      exact .inr (leaves row there committed)
    · exact .inl ((spares.journals id own).trans there)
  · by_cases own : id = operationId
    · subst own
      rw [reaches, List.mem_map]
      refine or_congr_right ⟨fun ⟨row, there, committed⟩ => ?_, ?_⟩
      · have keyed := (Table.lookup_eq_some.mp there).2
        refine ⟨row, mem_reached.mpr ⟨keyed ▸ there, committed, fun old wasThere => ?_⟩, keyed⟩
        obtain ⟨_, before, publishing⟩ := enters row there committed
        cases (keyed ▸ wasThere).symm.trans before
        simp [publishing]
      · rintro ⟨row, member, rfl⟩
        obtain ⟨there, committed, _⟩ := mem_reached.mp member
        exact ⟨row, there, committed⟩
    · rw [reached_iff, reached_iff, spares.journals id own, spares.records id own, iff_self_or,
        List.mem_map]
      rintro ⟨row, member, rfl⟩
      obtain ⟨there, committed, before⟩ := mem_reached.mp member
      exact absurd committed (before row ((spares.journals _ own).symm.trans there))
  · by_cases own : record.operationId = operationId
    · exact absurd (unended record ⟨member, provisioning, own⟩) ended
    · have held : record ∈ recordsOf store record.operationId := ⟨member, provisioning, rfl⟩
      refine ⟨?_, spares.results _ own record held⟩
      rw [← spares.records _ own] at held
      exact held.1

/-- A call that does not commit. -/
theorem Spares.quiet (spares : Spares store after operationId)
    (unended : ∀ record ∈ recordsOf store operationId, record.status = "in_progress")
    (uncommitted : ∀ row, after.journals.lookup operationId = some row → row.phase ≠ .committed)
    (leaves : ∀ row, store.journals.lookup operationId = some row → row.phase = .committed →
      after.journals.lookup operationId = none)
    (reaches : Reached after operationId ↔ Reached store operationId)
    (bindings : after.authorizedProviderBindings = store.authorizedProviderBindings) :
    Step store after [] := by
  have none : reached store after = [] := by
    refine List.eq_nil_iff_forall_not_mem.mpr fun row member => ?_
    obtain ⟨there, committed, before⟩ := mem_reached.mp member
    by_cases own : row.operationId = operationId
    · exact uncommitted row (own ▸ there) committed
    · exact before row ((spares.journals _ own).symm.trans there) committed
  refine spares.step unended (fun row there committed => absurd committed (uncommitted row there)) ?_
    ?_ (none ▸ .nil) bindings
  · intro row there committed
    exact ⟨leaves row there committed, reaches.mpr (.inl ⟨row, there, committed⟩)⟩
  · rw [reaches, iff_self_or]
    rintro ⟨row, there, committed⟩
    exact absurd committed (uncommitted row there)

private theorem replaced_step (orderly : Orderly sha256 start store)
    (found : store.journals.lookup operationId = some row)
    (before : row.phase ≠ .committed) (after : changed.phase ≠ .committed)
    (made : Replaced store.journals journals operationId changed) :
    Step store { store with journals := journals } [] := by
  have here := (made operationId).trans (if_pos rfl)
  obtain ⟨_, record, records, pending, _⟩ := orderly.active found
  refine (replaced_spares made).quiet ?_ ?_ ?_ ?_ rfl
  · rw [records]
    rintro _ rfl
    exact (pending_iff.mp pending).2.2.1
  · intro other there
    cases here.symm.trans there
    exact after
  · intro other there committed
    cases found.symm.trans there
    exact absurd committed before
  · have now : Reached { store with journals := journals } operationId ↔ _ :=
      reached_active here records pending
    rw [now, reached_active found records pending]
    exact iff_of_false after before

private theorem claims_step
    (claimed : Claimed sha256 store after row record lease) : Step store after [] := by
  obtain ⟨none, records⟩ := claimed_records claimed
  have here : after.journals.lookup row.operationId = some row :=
    (Table.lookup_insert claimed.journaled _).trans (if_pos rfl)
  have absent : store.journals.lookup row.operationId = .none := by
    refine Table.lookup_eq_none.mpr fun other member same => ?_
    exact (Table.insert_eq_some.mp claimed.journaled).1 (List.mem_map.mpr ⟨other, member, same⟩)
  refine (claimed_spares claimed).quiet (by simp [none]) ?_ (by simp [absent]) ?_ claimed.bindings
  · intro other there
    cases here.symm.trans there
    simp [claimed.planned]
  · rw [reached_active here records claimed.pending, reached_iff]
    simp [absent, none, claimed.planned]

private theorem commits_step (orderly : Orderly sha256 start store)
    (found : store.journals.lookup operationId = some row) (publishing : row.phase = .publishIntent)
    (authorizes : Authorizes row written)
    (made : Replaced store.journals journals operationId
      { row with phase := .committed, updatedAt := updatedAt }) :
    Step store { store with
      journals := journals
      authorizedProviderBindings := upsertBinding store.authorizedProviderBindings written }
      [written] := by
  have here := (made operationId).trans (if_pos rfl)
  obtain ⟨_, record, records, pending, _⟩ := orderly.active found
  refine (replaced_spares made).step ?_ (fun _ _ _ => ⟨row, found, publishing⟩) ?_ ?_ ?_ rfl
  · rw [records]
    rintro _ rfl
    exact (pending_iff.mp pending).2.2.1
  · intro other there committed
    cases found.symm.trans there
    simp [publishing] at committed
  · have now : Reached { store with
        journals := journals
        authorizedProviderBindings := upsertBinding store.authorizedProviderBindings written }
        operationId ↔ _ := reached_active here records pending
    simp [now, here]
  · have keyed := (Table.lookup_eq_some.mp found).2
    have only : journals.rows.filter (fun row => row.phase = .committed &&
        (store.journals.lookup row.operationId).all (·.phase ≠ .committed)) =
        [{ row with phase := .committed, updatedAt := updatedAt }] := by
      refine Table.filter_eq_singleton (Table.lookup_eq_some.mp here).1 ?_ ?_
      · simp [keyed, found, publishing]
      · intro other member hit
        have there : journals.lookup other.operationId = some other :=
          Table.lookup_eq_some.mpr ⟨member, rfl⟩
        rw [made] at there
        split at there
        · cases there
          rfl
        · -- a row that was there has not been committed by this call
          simp only [Bool.and_eq_true, decide_eq_true_eq] at hit
          simp [there, hit.1] at hit
    rw [reached, only]
    exact .cons authorizes .nil

/-- A finish ends in `completed` if the journal was committed. -/
private theorem finishes_step (orderly : Orderly sha256 start store)
    (finished : Finished store after operationId outcome completedAt row) : Step store after [] := by
  obtain ⟨_, record, records, pending, _⟩ := orderly.active finished.found
  have removed := finished_removed finished
  refine (finished_spares finished).quiet ?_ (by simp [removed]) (fun _ _ _ => removed) ?_
    finished.bindings
  · rw [records]
    rintro _ rfl
    exact (pending_iff.mp pending).2.2.1
  · have now := finished_records finished operationId
    rw [records, Set.image_singleton, ended_pending pending] at now
    rw [reached_active finished.found records pending, reached_iff, removed, now]
    obtain ⟨rfl, committed⟩ | ⟨rfl, planned | undone⟩ := finished.ends
    · simp [committed]
    · simp [planned, completedOutcome, failedOutcome]
    · simp [undone, completedOutcome, failedOutcome]

theorem change_step (orderly : Orderly sha256 start store) (change : Change sha256 store after) :
    ∃ written, Step store after written := by
  cases change with
  | same =>
    have none : reached store store = [] := by
      refine List.eq_nil_iff_forall_not_mem.mpr fun row member => ?_
      obtain ⟨there, committed, before⟩ := mem_reached.mp member
      exact before row there committed
    exact ⟨[], fun _ _ there _ => .inl there, fun _ _ there _ => .inl there, none ▸ .nil, rfl,
      fun id => by simp [none], fun _ member _ _ => ⟨member, rfl⟩⟩
  | claims claimed => exact ⟨[], claims_step claimed⟩
  | replaces found _ _ before after made => exact ⟨[], replaced_step orderly found before after made⟩
  | commits found publishing digest desktop made =>
    exact ⟨_, commits_step orderly found publishing ⟨digest, desktop⟩ made⟩
  | finishes finished => exact ⟨[], finishes_step orderly finished⟩

end

/-! ## Runs -/

/-- Some calls later, with the journals in the order in which they were committed. No call
stages a journal without what the phase needs. -/
inductive Run (sha256 : Sha256) (codec : TimeCodec) (start : ProvisioningStore) :
    List ProvisioningJournalRow → ProvisioningStore → Prop where
  | start : Run sha256 codec start [] start
  | call (run : Run sha256 codec start log store) (direct : stagesBare call = false) :
      Run sha256 codec start
        (log ++ reached store (serveProvisioning sha256 codec store call).2)
        (serveProvisioning sha256 codec store call).2

/-- No provisioning has begun. -/
structure Fresh (start : ProvisioningStore) : Prop where
  journals : start.journals = .empty
  records : ∀ record ∈ start.database.idempotencyRecords.rows, ¬isProvisioning record
  results : ∀ key : String × String × String, key.2.1 = "provider_secret_provisioning" →
    start.resultJson key = none

section
variable {sha256 : Sha256} {codec : TimeCodec} {start store after : ProvisioningStore}
  {leases : Leases} {log : List ProvisioningJournalRow}

theorem fresh_orderly (fresh : Fresh start) :
    Orderly sha256 start.database.controlLeases start := by
  refine ⟨fun id => .absent ?_ ?_, fun key isKey _ => fresh.results key isKey,
    fun lease member _ => .inl member⟩
  · rw [fresh.journals]
    rfl
  · refine Set.eq_empty_of_forall_notMem fun record ⟨member, provisioning, _⟩ => ?_
    exact fresh.records record member provisioning

section
variable (run : Run sha256 codec store log after) (orderly : Orderly sha256 leases store)
include run orderly

theorem run_orderly : Orderly sha256 leases after := by
  induction run with
  | start => exact orderly
  | call _ direct ih => exact change_orderly ih (serve_change direct)

/-- The bindings are authorized by the commits, in their order. -/
theorem run_authorized :
    ∃ written, List.Forall₂ Authorizes log written ∧
      after.authorizedProviderBindings =
        written.foldl upsertBinding store.authorizedProviderBindings := by
  induction run with
  | start => exact ⟨[], .nil, rfl⟩
  | call run direct ih =>
    obtain ⟨written, matched, authorized⟩ := ih
    obtain ⟨more, step⟩ := change_step (run_orderly run orderly) (serve_change direct)
    refine ⟨written ++ more, List.rel_append matched step.matched, ?_⟩
    rw [List.foldl_append, ← authorized, step.authorized]

theorem run_reached (id : String) :
    Reached after id ↔ Reached store id ∨ id ∈ log.map (·.operationId) := by
  induction run with
  | start => simp
  | call run direct ih =>
    obtain ⟨_, step⟩ := change_step (run_orderly run orderly) (serve_change direct)
    rw [step.reaches id, ih, List.map_append, List.mem_append, or_assoc]

theorem run_replays (member : record ∈ store.database.idempotencyRecords.rows)
    (provisioning : isProvisioning record) (ended : record.status ≠ "in_progress") :
    record ∈ after.database.idempotencyRecords.rows ∧
      after.resultJson record.key = store.resultJson record.key := by
  induction run with
  | start => exact ⟨member, rfl⟩
  | call run direct ih =>
    obtain ⟨there, same⟩ := ih
    obtain ⟨_, step⟩ := change_step (run_orderly run orderly) (serve_change direct)
    obtain ⟨still, alike⟩ := step.replays record there provisioning ended
    exact ⟨still, alike.trans same⟩

end

/-- A record that has ended has a result, and is answered with it. -/
theorem ended_answers (orderly : Orderly sha256 leases store)
    (member : record ∈ store.database.idempotencyRecords.rows) (provisioning : isProvisioning record)
    (ended : record.status ≠ "in_progress") : ∃ replay, store.resultJson record.key = some replay ∧
      answerRecord store record = .ok (.replay replay) := by
  have held : record ∈ recordsOf store record.operationId := ⟨member, provisioning, rfl⟩
  cases orderly.stages record.operationId with
  | absent _ records => simp [records] at held
  | active _ _ records pending =>
    rw [records, Set.mem_singleton_iff] at held
    exact absurd (held ▸ (pending_iff.mp pending).2.2.1) ended
  | ended _ records terminal outcome set =>
    rw [records, Set.mem_singleton_iff] at held
    subst held
    obtain ⟨replay, result⟩ := Option.ne_none_iff_exists'.mp set
    exact ⟨replay, result, by simp [answerRecord, result, terminal, outcome]⟩

private theorem token_provisioning
    (token : idempotentOperationToken operation = "provider_secret_provisioning") :
    operation = .providerSecretProvisioning := by
  cases operation <;> first | rfl | exact absurd token (by decide)

/-- A request of a record that has ended is answered with its result, by both calls. -/
theorem ended_replays (orderly : Orderly sha256 leases store)
    (member : record ∈ store.database.idempotencyRecords.rows) (provisioning : isProvisioning record)
    (ended : record.status ≠ "in_progress") (result : store.resultJson record.key = some replay)
    (input : IdempotencyInput) (sameKey : input.recordKey = record.key)
    (matched : record.matches input = true) :
    providerSecretProvisioningReplay store input = .ok (.replay replay) ∧
      ∀ key owner plan now, input.operationId = owner.operationId →
        hostIdentity store.database = .ok plan.hostIdentity → plan.desktopBinding = key →
        beginProviderSecretProvisioning sha256 codec store input key owner plan now =
          .ok (.replay replay, store) := by
  have operation : input.operation = .providerSecretProvisioning := by
    refine token_provisioning ?_
    have middle := congrArg (·.2.1) sameKey
    exact middle.trans provisioning
  have required : requireOperation input .providerSecretProvisioning = .ok () :=
    ensure_ok.mpr operation
  have found : matchingIdempotency store.database input = .ok (some record) := by
    have there : store.database.idempotencyRecords.lookup input.recordKey = some record :=
      Table.lookup_eq_some.mpr ⟨member, sameKey.symm⟩
    simp [matchingIdempotency, there, matched]
  obtain ⟨_, same, answer⟩ := ended_answers orderly member provisioning ended
  cases result.symm.trans same
  constructor
  · simp [providerSecretProvisioningReplay, required, found, answer, bind, Except.bind, pure,
      Except.pure]
  · intro key owner plan now sameId identity isKey
    simp [beginProviderSecretProvisioning, required, identity, ensure, sameId, isKey, found, answer,
      bind, Except.bind, pure, Except.pure]

end

/-- The tables of provisionings after any calls that stage a journal with what the phase
needs. The order of the parts: the journal and its record; its lease; the authorizations;
the phase `committed`; replays; loading. -/
theorem provisioning_journal_lifecycle (sha256 : Sha256) (codec : TimeCodec)
    (start store : ProvisioningStore) (log : List ProvisioningJournalRow) (fresh : Fresh start)
    (run : Run sha256 codec start log store) :
    (∀ id, store.journals.lookup id ≠ none ↔
      ∃ record ∈ store.database.idempotencyRecords.rows, isProvisioning record ∧
        record.operationId = id ∧ record.status = "in_progress") ∧
    (∀ id row, store.journals.lookup id = some row →
      store.database.controlLeases.rows.countP row.leasedBy = 1) ∧
    (∀ lease ∈ store.database.controlLeases.rows, lease.ownerKind = "provider_probe" →
      lease ∈ start.database.controlLeases.rows ∨
        ∃ id row, store.journals.lookup id = some row ∧ row.leasedBy lease = true) ∧
    (∃ written, List.Forall₂ Authorizes log written ∧
      store.authorizedProviderBindings =
        written.foldl upsertBinding start.authorizedProviderBindings) ∧
    (∀ id, id ∈ log.map (·.operationId) ↔ Reached store id) ∧
    (∀ call, stagesBare call = false →
      (∀ id row, (serveProvisioning sha256 codec store call).2.journals.lookup id = some row →
        row.phase = .committed → store.journals.lookup id = some row ∨
          ∃ old, store.journals.lookup id = some old ∧ old.phase = .publishIntent) ∧
      ∀ id row, store.journals.lookup id = some row → row.phase = .committed →
        (serveProvisioning sha256 codec store call).2.journals.lookup id = some row ∨
          (serveProvisioning sha256 codec store call).2.journals.lookup id = none ∧
          Reached (serveProvisioning sha256 codec store call).2 id) ∧
    (∀ record ∈ store.database.idempotencyRecords.rows, isProvisioning record →
      record.status ≠ "in_progress" → ∃ replay, ∀ more later, Run sha256 codec store more later →
        ∀ input : IdempotencyInput, input.recordKey = record.key → record.matches input = true →
          providerSecretProvisioningReplay later input = .ok (.replay replay) ∧
          ∀ key owner plan now, input.operationId = owner.operationId →
            hostIdentity later.database = .ok plan.hostIdentity → plan.desktopBinding = key →
            beginProviderSecretProvisioning sha256 codec later input key owner plan now =
              .ok (.replay replay, later)) ∧
    (∀ id row, store.journals.lookup id = some row →
      ∃ journal, loadJournal sha256 store id = .ok journal) := by
  have orderly := run_orderly run (fresh_orderly fresh)
  have unreached : ∀ id, ¬Reached start id := by
    rintro id (⟨row, there, _⟩ | ⟨record, member, provisioning, _⟩)
    · rw [fresh.journals] at there
      cases there
    · exact fresh.records record member provisioning
  refine ⟨?_, ?_, orderly.leases, run_authorized run (fresh_orderly fresh), ?_, ?_, ?_, ?_⟩
  · intro id
    constructor
    · intro there
      obtain ⟨row, found⟩ := Option.ne_none_iff_exists'.mp there
      obtain ⟨_, record, records, pending, _⟩ := orderly.active found
      obtain ⟨member, provisioning, isId⟩ : record ∈ recordsOf store id := by simp [records]
      exact ⟨record, member, provisioning, isId, (pending_iff.mp pending).2.2.1⟩
    · rintro ⟨record, member, provisioning, rfl, isOpen⟩
      have held : record ∈ recordsOf store record.operationId := ⟨member, provisioning, rfl⟩
      cases orderly.stages record.operationId with
      | absent _ records => simp [records] at held
      | active journal => simp [journal]
      | ended _ records terminal =>
        rw [records, Set.mem_singleton_iff] at held
        rw [held, terminal] at isOpen
        simp at isOpen
  · exact fun id row there => (orderly.active there).1.leased
  · intro id
    simp [run_reached run (fresh_orderly fresh) id, unreached id]
  · intro call direct
    obtain ⟨_, step⟩ := change_step orderly (serve_change direct)
    exact ⟨step.enters, step.leaves⟩
  · intro record member provisioning ended
    obtain ⟨replay, result, _⟩ := ended_answers orderly member provisioning ended
    refine ⟨replay, fun more later run input sameKey matched => ?_⟩
    obtain ⟨still, same⟩ := run_replays run orderly member provisioning ended
    exact ended_replays (run_orderly run orderly) still provisioning ended (same.trans result) input
      sameKey matched
  · exact fun id row there => loads there (orderly.active there).1

/-! ## A sample provisioning -/

def hexText (c : Char) : String := String.ofList (List.replicate 64 c)

def sampleSha256 : Sha256 := ⟨fun _ => hexText 'b', fun _ => List.replicate 64 'a'⟩

def sampleBinding : ResolvedProviderBinding where
  requestedModelAlias := "model-alias"
  requestedProviderAlias := "provider-alias"
  model := "model"
  modelProvider := "provider"
  endpoint := none
  authSource := some (.file "/secure/key")
  source := .userConfig
  allowProjectSelection := false
  experimentalProviderComputerUse := false
  bindingDigest := hexText 'b'

def sampleStore : ProvisioningStore := ⟨emptyStore, fun _ => none, .empty, .empty⟩

def sampleClaim : ProvisioningCall :=
  .begin (sampleInput .providerSecretProvisioning 0) SessionLifecycle.sampleBinding (sampleOwner 0)
    SessionLifecycle.sampleHost SessionLifecycle.sampleBinding "probe-test" sampleBinding "/secure/key"
    ("/secure/key.satelle-" ++ hexText 'a' ++ ".staged") (hexText 'c') (seconds 0)

/-- The provisioning is claimed. -/
def claimedStore : ProvisioningStore :=
  (serveProvisioning sampleSha256 sampleCodec sampleStore sampleClaim).2

theorem sampleStore_fresh : Fresh sampleStore := ⟨rfl, nofun, fun _ _ => rfl⟩

/-- Served one after the other. -/
def serveCalls (sha256 : Sha256) (codec : TimeCodec) (store : ProvisioningStore)
    (calls : List ProvisioningCall) : ProvisioningStore :=
  calls.foldl (fun store call => (serveProvisioning sha256 codec store call).2) store

theorem run_calls (calls : List ProvisioningCall)
    (run : Run sha256 codec start log store) (direct : ∀ call ∈ calls, stagesBare call = false) :
    ∃ log, Run sha256 codec start log (serveCalls sha256 codec store calls) := by
  induction calls generalizing store log with
  | nil => exact ⟨log, run⟩
  | cons call rest ih =>
    exact ih (run.call (direct call (by simp))) fun other member => direct other (by simp [member])

/-- A provisioning of a new file that succeeds. -/
def sampleCalls : List ProvisioningCall :=
  [sampleClaim, .recordStaged "operation-test" false none none (seconds 1),
    .transition "operation-test" .staged .validated (seconds 1),
    .transition "operation-test" .validated .publishIntent (seconds 2),
    .commit "operation-test" sampleBinding SessionLifecycle.sampleBinding false (.ok ()) (seconds 2),
    .finishSuccess "operation-test" (seconds 3)]

theorem provisioning_journal_lifecycle_completed :
    ∃ log, Run sampleSha256 sampleCodec sampleStore log
        (serveCalls sampleSha256 sampleCodec sampleStore sampleCalls) ∧
      "operation-test" ∈ log.map (·.operationId) := by
  obtain ⟨log, run⟩ := run_calls sampleCalls
    (.start : Run sampleSha256 sampleCodec sampleStore [] sampleStore) (by decide)
  refine ⟨log, run, ?_⟩
  obtain ⟨_, _, _, _, reached, _⟩ := provisioning_journal_lifecycle sampleSha256 sampleCodec
    sampleStore _ log sampleStore_fresh run
  rw [reached]
  have completed : (serveCalls sampleSha256 sampleCodec sampleStore
      sampleCalls).database.idempotencyRecords.rows.any (fun record =>
        record.operation = "provider_secret_provisioning" &&
          record.operationId = "operation-test" && record.durableOutcome = completedOutcome) = true := by
    decide +kernel
  obtain ⟨record, member, hit⟩ := List.any_eq_true.mp completed
  simp only [Bool.and_eq_true, decide_eq_true_eq] at hit
  exact .inr ⟨record, member, hit.1.1, hit.1.2, hit.2⟩

/-- `transition` may move `planned` to `staged`: the `CHECK` of the row is `NULL` then, and
the journal that is written never loads again. -/
theorem bare_staging_breaks_journal :
    (serveProvisioning sampleSha256 sampleCodec sampleStore sampleClaim).1.toBool = true ∧
      (serveProvisioning sampleSha256 sampleCodec claimedStore
        (.transition "operation-test" .planned .staged (seconds 1))).1 = .ok .done ∧
      ((serveProvisioning sampleSha256 sampleCodec claimedStore
        (.transition "operation-test" .planned .staged (seconds 1))).2.journals.lookup
          "operation-test").map (·.phase) = some .staged ∧
      loadJournal sampleSha256 (serveProvisioning sampleSha256 sampleCodec claimedStore
        (.transition "operation-test" .planned .staged (seconds 1))).2 "operation-test" =
        StorageError.fail .invalidStoredState := by
  decide

end Satelle.JournalLifecycle
