import Satelle.StoreRepresentation
import Satelle.StoreEffects

/-! The transactions that admit a Turn, or cancel an admission, as changes. The
statements are taken apart here once; the invariants of the store use only the
changes. -/
namespace Satelle.AdmissionChanges
open Satelle.Core Lib Host SessionInvariants SessionLifecycle StoreRows StoreStatements StoreChanges
open StoreRepresentation StoreEffects

/-! ## Admissions -/

private theorem logAdmission_ok
    (ran : logAdmission codec db event session turnId readiness = .ok after) :
    ∃ logs sequence, LogsEntered codec (db.logs, db.logSequence) (logs, sequence) ∧
      after = { db with logs := logs, logSequence := sequence } := by
  unfold logAdmission at ran
  simp only [except_bind_ok] at ran
  obtain ⟨first, logged, ran⟩ := ran
  obtain ⟨_, _, entered, rfl⟩ := logTurn_ok logged
  rcases readiness with _ | readiness
  · cases ran
    exact ⟨_, _, entered, rfl⟩
  · simp only [except_bind_ok] at ran
    obtain ⟨second, summarized, ran⟩ := ran
    obtain ⟨_, _, summary, rfl⟩ := logTurn_ok summarized
    cases provider : readiness.provider with
    | none =>
      simp only [provider] at ran
      cases ran
      exact ⟨_, _, entered.trans summary, rfl⟩
    | some _ =>
      simp only [provider] at ran
      obtain ⟨_, _, last, rfl⟩ := logTurn_ok ran
      exact ⟨_, _, (entered.trans summary).trans last, rfl⟩

private theorem recordAdmission_ok
    (ran : recordAdmission codec db event session turnId context = .ok (outcome, after)) :
    ∃ readiness leases records logs sequence subject,
      LeaseTaken db.controlLeases session turnId leases ∧
      RecordOpened db.idempotencyRecords context.idempotency "v1.turn.starting" session.id turnId
        records ∧
      outcome = .execute session subject ∧
      LogsEntered codec (db.logs, db.logSequence) (logs, sequence) ∧
      after = { db with
        turnAdmissionReadiness := readiness
        controlLeases := leases
        idempotencyRecords := records
        logs := logs
        logSequence := sequence } := by
  unfold recordAdmission at ran
  simp only [except_bind_ok] at ran
  obtain ⟨_, readied, _, leased, _, recorded, _, logged, subject, _, made⟩ := ran
  obtain ⟨readiness, rfl⟩ : ∃ rows, { db with turnAdmissionReadiness := rows } = _ := by
    unfold insertReadinessRef insertAdmissionReadiness at readied
    split at readied
    · simp only [except_bind_ok] at readied
      obtain ⟨_, _, _, _, _, _, made⟩ := readied
      exact ⟨_, Except.ok.inj made⟩
    · exact ⟨_, Except.ok.inj readied⟩
  simp only [insertControlLease, except_bind_ok, orFail_ok, ensure_ok] at leased
  obtain ⟨acquiredAt, _, _, _, leases, inserted, leased⟩ := leased
  cases leased
  have taken : LeaseTaken db.controlLeases session turnId leases :=
    ⟨_, inserted, ⟨rfl, rfl, rfl, rfl, rfl⟩, rfl⟩
  obtain ⟨records, opened, rfl⟩ := insertIdempotency_ok recorded
  obtain ⟨logs, sequence, entered, rfl⟩ := logAdmission_ok logged
  cases made
  exact ⟨readiness, leases, records, logs, sequence, subject, taken, opened, rfl, entered, rfl⟩

/-- A Session that passes for an initial one is what starting it made. -/
private theorem validateInitialSession_ok (formed : WellFormed session)
    (valid : validateInitialSession session = .ok ()) :
    ∃ turn, session.turns = [turn] ∧ turn.state = .starting ∧
      Session.startWithDisplayName session.id session.displayName session.hostIdentity
        session.desktopBinding turn.id turn.executionPolicy session.createdAt = .ok session := by
  unfold validateInitialSession at valid
  split at valid
  · rename_i turn only
    rw [StorageError.fail, check_ok] at valid
    simp only [not_or, not_not, Option.isSome_iff_ne_none, ne_eq] at valid
    obtain ⟨⟨revision, updated, turnRevision, starting, startedAt, updatedAt, terminalAt, summary⟩,
      _⟩ := valid
    refine ⟨turn, only, starting, ?_⟩
    have target := (formed.coherent turn (by simp [only])).target
    unfold Session.startWithDisplayName
    rw [check_ok]
    refine ⟨not_not.mpr target, ?_⟩
    have begins : turn = Turn.starting turn.id turn.executionPolicy session.createdAt := by
      cases turn
      simp_all [Turn.starting]
    rw [← begins, ← only, ← revision]
    cases session
    cases updated
    rfl
  · simp [StorageError.fail] at valid

/-- A desktop is available only when nobody maintains its Host. -/
theorem ensureControlLeaseAvailable_ok
    (ran : ensureControlLeaseAvailable codec db host binding now = .ok done) :
    db.maintenanceLeases.lookup host.text = none := by
  unfold ensureControlLeaseAvailable at ran
  split at ran
  · simp only [except_bind_ok, StorageError.fail] at ran
    obtain ⟨_, _, failed⟩ := ran
    cases failed
  · simp only [except_bind_ok] at ran
    obtain ⟨_, _, failed⟩ := ran
    cases failed
  · rename_i unmaintained _
    exact unmaintained

/-- What an admission that succeeds has done: it was replayed, or the Turn, which is the
last one of its Session, has been recorded on a Host that nobody maintains. -/
inductive Began (codec : TimeCodec) (db : Database) (input : IdempotencyInput) :
    AdmissionOutcome → Database → Prop where
  | replayed (matching : matchingIdempotency db input = .ok (some record))
      (replayed : replayAdmission codec db record expected = .ok replay) :
      Began codec db input replay.outcome db
  | admitted {session : Session} (last : lastTurnId session = some turnId)
      (recorded : after.idempotencyRecords.lookup input.recordKey = some record)
      (opened : Opened input "v1.turn.starting" session.id turnId record)
      (unmaintained : db.maintenanceLeases.lookup session.hostIdentity.text = none)
      (hosted : db.daemonIdentity = some session.hostIdentity.text ∨
        ∃ sessionId before, loadRequiredSession codec db sessionId = .ok before ∧
          before.hostIdentity = session.hostIdentity) :
      Began codec db input (.execute session subject) after

/-- The record that has been opened is found. -/
private theorem opened_recorded
    (opened : RecordOpened before input token sessionId turnId records) :
    ∃ record, records.lookup input.recordKey = some record ∧
      Opened input token sessionId turnId record := by
  obtain ⟨record, inserted, facts⟩ := opened
  exact ⟨record, by rw [Table.lookup_insert inserted, if_pos facts.key], facts⟩

section
variable (represents : Represents codec db held)
include represents

theorem beginSession_changes (made : Reachable session)
    (ran : beginSession codec db session context now = .ok (outcome, after)) :
    ∃ held', Performs codec db held (.beginSession session made context now) (.admission outcome)
        held' ∧
      Changes codec (admitting context.idempotency) db held after held' ∧
      Began codec db context.idempotency outcome after := by
  unfold beginSession at ran
  simp only [except_bind_ok, ensure_ok, orFail_ok, requireOperation] at ran
  obtain ⟨_, isRun, _, _, _, valid, head, isHead, found, matching, ran⟩ := ran
  have formed := reachable_wellFormed made
  obtain ⟨turn, only, starting, started⟩ := validateInitialSession_ok formed valid
  rw [only] at isHead
  cases isHead
  cases found with
  | some record =>
    simp only [except_bind_ok] at ran
    obtain ⟨replay, replayed, returned⟩ := ran
    cases returned
    exact ⟨held, .sessionReplayed matching replayed, .none, .replayed matching replayed⟩
  | none =>
    have unrecorded := (matchingIdempotency_ok.mp matching).1
    simp only [admitSession, except_bind_ok, ensure_ok] at ran
    obtain ⟨cancelled, answered, _, rfl, _, available, _, inserted, ran⟩ := ran
    obtain ⟨sessions, privateRefs, turns, turnRefs, policies, sessionAdded, turnAdded, rfl⟩ :=
      insertInitialSession_ok (only ▸ rfl : session.turns.head? = some head) inserted
    obtain ⟨readiness, leases, records, logs, sequence, subject, taken, opened, rfl, entered, rfl⟩ :=
      recordAdmission_ok ran
    obtain ⟨record, recorded, facts⟩ := opened_recorded opened
    have unmaintained := ensureControlLeaseAvailable_ok available
    refine ⟨_, .sessionStarted matching (sessionAdded_free represents sessionAdded) started, ?_,
      .admitted (by simp [lastTurnId, only]) recorded facts unmaintained (.inl sessionAdded.ownHost)⟩
    exact .more (.more .none (.started not_false formed only starting context.idempotency isRun
      ⟨unrecorded, answered⟩ sessionAdded turnAdded taken opened rfl unmaintained)) (.logged entered)

private theorem admitFollowUp_changes
    (isSteer : context.idempotency.operation = .steer)
    (unrecorded : db.idempotencyRecords.lookup context.idempotency.recordKey = none)
    (ran : admitFollowUp codec db sessionId expected turnId policy time requiresThread context now =
      .ok (outcome, after)) :
    ∃ before commit session subject, held sessionId = some before ∧
      before.startFollowUp expected turnId policy time = (.ok commit, session) ∧
      Changes codec (admitting context.idempotency) db held after
        (Function.update held sessionId (some session)) ∧
      outcome = .execute session subject ∧
      Began codec db context.idempotency outcome after := by
  unfold admitFollowUp at ran
  simp only [except_bind_ok, ensure_ok, check_ok, mapError_ok, orFail_ok,
    represents.required] at ran
  obtain ⟨cancelled, answered, _, rfl, before, known, _, _, _, commit, committed, _, available, _,
    moved, turn, found, _, inserted, ran⟩ := ran
  obtain ⟨rfl, stored⟩ := represents.stored _ _ known
  rcases startFollowUp_cases before expected turnId policy time with
    ⟨e, failed⟩ | ⟨commit', session, started, commits⟩
  · rw [failed] at committed
    cases committed
  · have appends := commits.appends
    have formed := commits_wellFormed stored.formed commits
    rw [started] at committed available moved found inserted ran
    cases committed
    cases appends.turn_after.symm.trans found
    obtain ⟨sessions, sessionMoved, rfl⟩ := updateSessionRow_ok moved
    have ordinal : session.turns.length - 1 = before.turns.length := by simp [appends.shape]
    rw [ordinal] at inserted
    obtain ⟨turns, turnRefs, policies, added, rfl⟩ := insertTurn_ok inserted
    obtain ⟨readiness, leases, records, logs, sequence, subject, taken, opened, rfl, entered, rfl⟩ :=
      recordAdmission_ok ran
    obtain ⟨record, recorded, facts⟩ := opened_recorded opened
    have unmaintained := ensureControlLeaseAvailable_ok available
    rw [appends.same.id] at opened
    refine ⟨before, _, session, subject, known, started, ?_, rfl,
      .admitted (by simp [lastTurnId, appends.shape, Turn.starting]) recorded facts unmaintained
        (.inr ⟨_, before, represents.required.mpr known, appends.same.host.symm⟩)⟩
    exact .more (.more .none (.appended known formed appends context.idempotency isSteer
      ⟨unrecorded, answered⟩ sessionMoved ⟨added.turns, added.privateRefs, added.policies⟩ taken
      opened rfl unmaintained)) (.logged entered)

theorem beginFollowUp_changes
    (ran : beginFollowUp codec db sessionId expected turnId policy time requiresThread context now =
      .ok (outcome, after)) :
    ∃ held', Performs codec db held
        (.beginFollowUp sessionId expected turnId policy time requiresThread context now)
        (.admission outcome) held' ∧
      Changes codec (admitting context.idempotency) db held after held' ∧
      Began codec db context.idempotency outcome after := by
  unfold beginFollowUp at ran
  simp only [except_bind_ok, ensure_ok, requireOperation] at ran
  obtain ⟨_, isSteer, _, _, found, matching, ran⟩ := ran
  cases found with
  | some record =>
    simp only [except_bind_ok] at ran
    obtain ⟨replay, replayed, returned⟩ := ran
    cases returned
    exact ⟨held, .followUpReplayed matching replayed, .none, .replayed matching replayed⟩
  | none =>
    have unrecorded := (matchingIdempotency_ok.mp matching).1
    obtain ⟨before, commit, session, subject, known, started, changes, rfl, began⟩ :=
      admitFollowUp_changes represents isSteer unrecorded ran
    exact ⟨_, .followUpStarted matching known started, changes, began⟩

end

/-- Whether the request is replayed or admitted, it has a record then. -/
theorem Began.recorded (began : Began codec db input outcome after) :
    after.idempotencyRecords.lookup input.recordKey ≠ none := by
  cases began with
  | replayed matching =>
    rw [(matchingIdempotency_ok.mp matching).1]
    simp
  | admitted _ recorded => simp [recorded]

/-! ## Cancellations -/

/-- What a cancellation that succeeds has done, by what it found. -/
inductive Cancels (codec : TimeCodec) (db : Database) (input : IdempotencyInput)
    (outcome : DurableCancellationOutcome) (observedAt : OffsetDateTime) (reconciled : Bool) :
    DurableAdmissionState → Database → Prop where
  | admitted (recorded : matchingIdempotency db input = .ok (some record))
      (replayed : replayAdmission codec db record expectedSessionId = .ok replay) :
      Cancels codec db input outcome observedAt reconciled (.admitted replay) db
  | found (unrecorded : db.idempotencyRecords.lookup input.recordKey = none)
      (visible : matchingAdmissionCancellation codec db input observedAt = .ok (some existing)) :
      Cancels codec db input outcome observedAt reconciled (.ofCancellation existing) db
  | settled (unrecorded : db.idempotencyRecords.lookup input.recordKey = none)
      (visible : matchingAdmissionCancellation codec db input observedAt =
        .ok (some .recoveryPending))
      (asked : reconciled = true ∧ outcome = .cancelled)
      (ran : settleCancellation codec db input observedAt = .ok after) :
      Cancels codec db input outcome observedAt reconciled .cancelled after
  | suspended (unrecorded : db.idempotencyRecords.lookup input.recordKey = none)
      (visible : matchingAdmissionCancellation codec db input observedAt = .ok (some .cancelled)) :
      Cancels codec db input outcome observedAt reconciled .recoveryPending
        (suspendCancellation db input)
  | inserted (unrecorded : db.idempotencyRecords.lookup input.recordKey = none)
      (invisible : matchingAdmissionCancellation codec db input observedAt = .ok none)
      (ran : insertCancellation codec db input outcome observedAt = .ok after) :
      Cancels codec db input outcome observedAt reconciled (.ofCancellation outcome) after

theorem recordAdmissionCancellation_cancels
    (ran : recordAdmissionCancellationInner codec db operation input expectedSessionId outcome
      observedAt reconciled = .ok (state, after)) :
    Cancels codec db input outcome observedAt reconciled state after := by
  unfold recordAdmissionCancellationInner at ran
  simp only [except_bind_ok] at ran
  obtain ⟨_, _, found, matching, ran⟩ := ran
  cases found with
  | some record =>
    simp only [except_bind_ok] at ran
    obtain ⟨replay, replayed, returned⟩ := ran
    cases returned
    exact .admitted matching replayed
  | none =>
    obtain ⟨unrecorded, _⟩ := matchingIdempotency_ok.mp matching
    simp only [except_bind_ok] at ran
    obtain ⟨existing, visible, ran⟩ := ran
    unfold cancelUnadmitted at ran
    split at ran
    · split at ran
      · rename_i asked
        simp only [except_bind_ok] at ran
        obtain ⟨_, settled, returned⟩ := ran
        cases returned
        exact .settled unrecorded visible asked settled
      · cases ran
        exact .found unrecorded visible
    · split at ran
      · cases ran
        exact .suspended unrecorded visible
      · cases ran
        exact .found unrecorded visible
    · simp only [except_bind_ok] at ran
      obtain ⟨_, inserted, returned⟩ := ran
      cases returned
      exact .inserted unrecorded visible inserted

/-- Tombstones under other keys are not touched. -/
private theorem isOf_others {table : Table AdmissionCancellationRow AdmissionCancellationRow.key}
    (ne : key ≠ input.recordKey) :
    (table.updateWhere (AdmissionCancellationRow.isOf input) move keeps).lookup key =
      table.lookup key := by
  rw [Table.lookup_updateWhere]
  cases found : table.lookup key with
  | none => rfl
  | some row =>
    have same := (Table.lookup_eq_some.mp found).2
    simp [patch, AdmissionCancellationRow.isOf, same, ne]

/-- The tombstone a request is cancelled with. -/
structure Buried (codec : TimeCodec) (input : IdempotencyInput)
    (outcome : DurableCancellationOutcome) (observedAt : OffsetDateTime)
    (row : AdmissionCancellationRow) : Prop where
  key : row.key = input.recordKey
  outcome : row.outcome = outcome.token
  expires : parseTime codec row.expiresAt = .ok (observedAt + idempotencyRetention)

theorem insertCancellation_ok
    (ran : insertCancellation codec db input outcome observedAt = .ok after) :
    ∃ cancellations row, after = { db with admissionCancellations := cancellations } ∧
      (input.operation = .run ∨ input.operation = .steer) ∧
      Buried codec input outcome observedAt row ∧
      cancellations.lookup input.recordKey = some row ∧
      ∀ key, key ≠ input.recordKey →
        cancellations.lookup key = db.admissionCancellations.lookup key := by
  unfold insertCancellation at ran
  simp only [except_bind_ok, ensure_ok, orFail_ok] at ran
  obtain ⟨createdAt, _, expiresAt, expires, _, admission, _, _, rows, inserted, made⟩ := ran
  cases made
  refine ⟨rows, _, rfl, admission, ?_, (Table.lookup_insert inserted _).trans (if_pos rfl), ?_⟩
  · exact ⟨rfl, rfl, parseTime_format expires⟩
  · intro key ne
    rw [Table.lookup_insert inserted]
    refine (if_neg ne.symm).trans (Table.lookup_deleteWhere_spared fun row same => ?_)
    simp [AdmissionCancellationRow.isOf, same, ne]

/-- The tombstone under the key of a request, once it has been rewritten. -/
private theorem isOf_own {table : Table AdmissionCancellationRow AdmissionCancellationRow.key}
    (move : AdmissionCancellationRow → AdmissionCancellationRow)
    (keeps : ∀ row, AdmissionCancellationRow.key (move row) = AdmissionCancellationRow.key row)
    (found : table.lookup input.recordKey = some row) :
    (table.updateWhere (AdmissionCancellationRow.isOf input) move keeps).lookup input.recordKey =
      some (move row) := by
  have own := (Table.lookup_eq_some.mp found).2
  rw [Table.lookup_updateWhere, found, Option.map_some, patch,
    if_pos (by simp [AdmissionCancellationRow.isOf, own])]

theorem settleCancellation_ok (ran : settleCancellation codec db input observedAt = .ok after) :
    ∃ cancellations, after = { db with admissionCancellations := cancellations } ∧
      (∀ row, db.admissionCancellations.lookup input.recordKey = some row →
        ∃ settled, Buried codec input .cancelled observedAt settled ∧
          cancellations.lookup input.recordKey = some settled) ∧
      ∀ key, key ≠ input.recordKey →
        cancellations.lookup key = db.admissionCancellations.lookup key := by
  unfold settleCancellation at ran
  simp only [except_bind_ok] at ran
  obtain ⟨createdAt, _, expiresAt, expires, made⟩ := ran
  cases made
  refine ⟨_, rfl, ?_, fun key => isOf_others⟩
  intro row found
  refine ⟨_, ?_, isOf_own _ _ found⟩
  exact ⟨(Table.lookup_eq_some.mp found).2, rfl, parseTime_format expires⟩

/-- A suspended tombstone keeps everything but its outcome. -/
theorem suspendCancellation_own
    (found : db.admissionCancellations.lookup input.recordKey = some row) :
    (suspendCancellation db input).admissionCancellations.lookup input.recordKey =
      some { row with outcome := "recovery_pending" } :=
  isOf_own (fun row => { row with outcome := "recovery_pending" }) (fun _ => rfl) found

theorem recordAdmissionCancellation_changes
    (ran : recordAdmissionCancellationInner codec db operation input expectedSessionId outcome
      observedAt reconciled = .ok (state, after)) :
    Changes codec (cancelling input) db held after held := by
  cases recordAdmissionCancellation_cancels ran with
  | admitted | found => exact .none
  | settled unrecorded _ _ settled =>
    obtain ⟨cancellations, rfl, _, others⟩ := settleCancellation_ok settled
    exact .more .none (.cancelled input unrecorded others rfl)
  | suspended unrecorded =>
    exact .more .none (.cancelled input unrecorded (fun key => isOf_others) rfl)
  | inserted unrecorded _ inserted =>
    obtain ⟨cancellations, row, rfl, _, _, _, others⟩ := insertCancellation_ok inserted
    exact .more .none (.cancelled input unrecorded others rfl)

end Satelle.AdmissionChanges
