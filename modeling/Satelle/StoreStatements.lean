import Satelle.StoreRows
import Satelle.Host.Stop

/-! What each writing statement does when it succeeds, table by table. The
transactions are compared with these facts only, never with the statements
themselves. -/
namespace Satelle.StoreStatements
open Satelle.Core Lib Host StoreRows

/-! ## Facts about tables -/

/-- A Turn's three rows have been inserted. -/
structure TurnAdded (codec : TimeCodec) (db : Database) (sessionId : SessionId) (ordinal : Nat)
    (turn : Turn) (turns : Table TurnRow (·.turnId))
    (privateRefs : Table TurnPrivateRefsRow (·.turnId))
    (policies : Table TurnPolicyRow (·.turnId)) : Prop where
  turns : ∃ row, db.turns.insert row = some turns ∧ row.sessionId = sessionId.text ∧
    row.ordinal = ordinal ∧ TurnColumns codec row turn
  privateRefs : ∃ row, db.turnPrivateRefs.insert row = some privateRefs ∧
    row.turnId = turn.id.text ∧ isPrivateReference row.requestToken = true ∧
    row.upstreamTurnRef = none
  policies : db.turnPolicies.insert (turnPolicyRow turn.id turn.executionPolicy) = some policies

/-- A Session's two rows have been inserted. -/
structure SessionAdded (codec : TimeCodec) (db : Database) (session : Session)
    (sessions : Table SessionRow (·.sessionId))
    (privateRefs : Table SessionPrivateRefsRow (·.sessionId)) : Prop where
  sessions : ∃ row, db.sessions.insert row = some sessions ∧ row.sessionId = session.id.text ∧
    SessionColumns codec row session
  privateRefs : ∃ row, db.sessionPrivateRefs.insert row = some privateRefs ∧
    row.sessionId = session.id.text ∧ row.hostIdentityRef = session.hostIdentity.text ∧
    row.desktopBindingRef = session.desktopBinding.text ∧
    row.upstreamThreadRef = none ∧ row.upstreamGoalRef = none
  ownHost : db.daemonIdentity = some session.hostIdentity.text

theorem moved_sessionId (session : Session) (updatedAt : String) : ∀ row : SessionRow,
    { row with
      sessionStateRevision := formatRevision session.revision
      updatedAt := updatedAt }.sessionId = row.sessionId :=
  fun _ => rfl

/-- The Session row at the expected revision has been moved to a new one. -/
def SessionMoved (codec : TimeCodec) (db : Database) (session : Session)
    (expected : SessionStateRevision) (sessions : Table SessionRow (·.sessionId)) : Prop :=
  ∃ updatedAt, parseTime codec updatedAt = .ok session.updatedAt ∧
    db.sessions.updateOne
      (fun row => row.sessionId = session.id.text &&
        row.sessionStateRevision = formatRevision expected)
      (fun row => { row with
        sessionStateRevision := formatRevision session.revision
        updatedAt := updatedAt })
      (moved_sessionId session updatedAt) = some sessions

theorem moved_turnId (turn : Turn) (updatedAt : String) (terminalAt : Option String) :
    ∀ row : TurnRow, { row with
      turnStateRevision := formatRevision turn.revision
      state := turnStateToken turn.state
      updatedAt := updatedAt
      terminalAt := terminalAt
      safeSummary := turn.safeSummary.map safeSummaryToken }.turnId = row.turnId :=
  fun _ => rfl

/-- The Turn row at the expected revision has been moved to a new one. -/
def TurnMoved (codec : TimeCodec) (db : Database) (sessionId : SessionId) (turn : Turn)
    (expected : TurnStateRevision) (turns : Table TurnRow (·.turnId)) : Prop :=
  ∃ updatedAt terminalAt, parseTime codec updatedAt = .ok turn.updatedAt ∧
    terminalAt.mapM (parseTime codec) = .ok turn.terminalAt ∧
    db.turns.updateOne
      (fun row => row.turnId = turn.id.text && row.sessionId = sessionId.text &&
        row.turnStateRevision = formatRevision expected)
      (fun row => { row with
        turnStateRevision := formatRevision turn.revision
        state := turnStateToken turn.state
        updatedAt := updatedAt
        terminalAt := terminalAt
        safeSummary := turn.safeSummary.map safeSummaryToken })
      (moved_turnId turn updatedAt terminalAt) = some turns

abbrev LeaseTable := Table ControlLeaseRow ControlLeaseRow.key
abbrev RecordTable := Table IdempotencyRow IdempotencyRow.key

/-- A lease that a Turn holds. -/
structure HeldBy (session : Session) (turnId : TurnId) (lease : ControlLeaseRow) : Prop where
  host : lease.hostIdentityRef = session.hostIdentity.text
  binding : lease.desktopBindingRef = session.desktopBinding.text
  kind : lease.ownerKind = "turn"
  session : lease.sessionId = some session.id.text
  turn : lease.turnId = some turnId.text

/-- A Turn has taken the lease of its desktop. -/
def LeaseTaken (leases : LeaseTable) (session : Session) (turnId : TurnId) (after : LeaseTable) :
    Prop :=
  ∃ lease, leases.insert lease = some after ∧ HeldBy session turnId lease ∧
    lease.leaseState = "active"

/-- The lease of a Turn has been moved to the Turn's state. -/
def LeaseFollows (leases : LeaseTable) (sessionId : SessionId) (turnId : TurnId)
    (state : TurnState) (after : LeaseTable) : Prop :=
  if state.isTerminal then leases.deleteOne (ControlLeaseRow.ownedBy sessionId turnId) = some after
  else leases.updateOne (ControlLeaseRow.ownedBy sessionId turnId)
    (fun lease => { lease with leaseState := leaseStateToken state }) (fun _ => rfl) = some after

/-- The columns of a record that no update touches. -/
structure SameRequest (record after : IdempotencyRow) : Prop where
  principal : after.principalRef = record.principalRef
  operation : after.operation = record.operation
  key : after.idempotencyKey = record.idempotencyKey
  digest : after.requestDigest = record.requestDigest
  schema : after.digestSchemaVersion = record.digestSchemaVersion
  keyVersion : after.hmacKeyVersion = record.hmacKeyVersion
  session : after.sessionId = record.sessionId
  turn : after.turnId = record.turnId

theorem SameRequest.refl (record : IdempotencyRow) : SameRequest record record :=
  ⟨rfl, rfl, rfl, rfl, rfl, rfl, rfl, rfl⟩

theorem SameRequest.trans
    (first : SameRequest record middle) (second : SameRequest middle later) :
    SameRequest record later where
  principal := second.principal.trans first.principal
  operation := second.operation.trans first.operation
  key := second.key.trans first.key
  digest := second.digest.trans first.digest
  schema := second.schema.trans first.schema
  keyVersion := second.keyVersion.trans first.keyVersion
  session := second.session.trans first.session
  turn := second.turn.trans first.turn

/-- A record that has been opened for a request. -/
structure Opened (input : IdempotencyInput) (durableOutcome : String) (sessionId : SessionId)
    (turnId : TurnId) (record : IdempotencyRow) : Prop where
  key : record.key = input.recordKey
  matching : record.matches input = true
  operation : record.operation = idempotentOperationToken input.operation
  status : record.status = "in_progress"
  outcome : record.durableOutcome = durableOutcome
  session : record.sessionId = some sessionId.text
  turn : record.turnId = some turnId.text

def RecordOpened (records : RecordTable) (input : IdempotencyInput) (durableOutcome : String)
    (sessionId : SessionId) (turnId : TurnId) (after : RecordTable) : Prop :=
  ∃ record, records.insert record = some after ∧ Opened input durableOutcome sessionId turnId record

/-- The Session revision and update time saved with an outcome. -/
def Saves (codec : TimeCodec) (record : IdempotencyRow) (revision : SessionStateRevision)
    (updatedAt : OffsetDateTime) : Prop :=
  record.resultSessionStateRevision = some (formatRevision revision) ∧
    ∃ text, record.resultSessionUpdatedAt = some text ∧ parseTime codec text = .ok updatedAt

/-- A record that tells the state its Turn is in: in progress, or terminal with
the Session as the Turn left it. -/
structure Tells (codec : TimeCodec) (record : IdempotencyRow) (state : TurnState)
    (revision : SessionStateRevision) (updatedAt : OffsetDateTime) : Prop where
  outcome : record.durableOutcome = turnIdempotencyToken state
  running : state.isTerminal = false → record.status = "in_progress"
  ended : state.isTerminal = true → record.status = "terminal" ∧
    Saves codec record revision updatedAt

/-- The admission record of a Turn has been moved to the Turn's state. -/
def RecordFollows (codec : TimeCodec) (records : RecordTable) (session : Session) (turnId : TurnId)
    (state : TurnState) (after : RecordTable) : Prop :=
  ∃ move keeps, records.updateOne (IdempotencyRow.admits session.id turnId) move keeps =
      some after ∧
    ∀ record, SameRequest record (move record) ∧
      Tells codec (move record) state session.revision session.updatedAt

/-- The condition under which a stop record is completed. -/
def isOpenStop (input : IdempotencyInput) (record : IdempotencyRow) : Bool :=
  record.principalRef = input.principalRef.text && record.operation = "stop" &&
    record.idempotencyKey = input.key.text && record.requestDigest = input.requestDigest &&
    record.status = "in_progress"

/-- A completed stop record. -/
structure Completed (codec : TimeCodec) (token : String) (session : Session)
    (record : IdempotencyRow) : Prop where
  status : record.status = "terminal"
  outcome : record.durableOutcome = token
  saved : Saves codec record session.revision session.updatedAt

def StopClosed (codec : TimeCodec) (records : RecordTable) (input : IdempotencyInput)
    (token : String) (session : Session) (after : RecordTable) : Prop :=
  ∃ close keeps, records.updateOne (isOpenStop input) close keeps = some after ∧
    ∀ record, SameRequest record (close record) ∧ Completed codec token session (close record)

/-! ## Statements -/

theorem matchingIdempotency_ok :
    matchingIdempotency db input = .ok found ↔
      db.idempotencyRecords.lookup input.recordKey = found ∧
        ∀ record ∈ found, record.matches input = true := by
  unfold matchingIdempotency
  cases db.idempotencyRecords.lookup input.recordKey with
  | none =>
    simp only [Except.ok.injEq, iff_self_and]
    rintro rfl
    simp
  | some record =>
    by_cases same : record.matches input = true
    · simp only [same, if_true, Except.ok.injEq, iff_self_and]
      rintro rfl
      simpa using same
    · simp only [same, Bool.false_eq_true, if_false, StorageError.fail, reduceCtorEq, false_iff]
      rintro ⟨rfl, matching⟩
      exact same (matching record rfl)

/-- The log with the last cursor it has given out gains an entry: the next cursor, and
the time that was asked for or that of the last entry. -/
inductive LogEntered (codec : TimeCodec) : List LogRow × Nat → List LogRow × Nat → Prop where
  | entered {logs : List LogRow} {sequence : Nat} {entry : LogRow} {requested : Int}
      (cursor : entry.logCursor = sequence + 1)
      (asked : -2 ^ 63 ≤ requested ∧ requested < 2 ^ 63)
      (clamped : entry.recordedAtUnixNanos = match logs.getLast? with
        | some prior => max prior.recordedAtUnixNanos requested
        | none => requested)
      (written : codec.format entry.recordedAtUnixNanos = some entry.recordedAt) :
      LogEntered codec (logs, sequence) (logs ++ [entry], sequence + 1)

abbrev LogsEntered (codec : TimeCodec) : List LogRow × Nat → List LogRow × Nat → Prop :=
  Relation.ReflTransGen (LogEntered codec)

theorem insertSafeLog_ok (ran : insertSafeLog codec db record = .ok after) :
    ∃ logs sequence, LogsEntered codec (db.logs, db.logSequence) (logs, sequence) ∧
      after = { db with logs := logs, logSequence := sequence } := by
  unfold insertSafeLog at ran
  simp only [except_bind_ok, formatTime_ok] at ran
  obtain ⟨requested, timed, recordedAt, written, _, _, made⟩ := ran
  unfold unixTimestampNanos at timed
  split at timed
  · rename_i bounds
    cases timed
    cases made
    exact ⟨_, _, .single (.entered rfl bounds rfl written), rfl⟩
  · cases timed

theorem logTurn_ok (ran : logTurn codec db event severity session turnId time = .ok after) :
    ∃ logs sequence, LogsEntered codec (db.logs, db.logSequence) (logs, sequence) ∧
      after = { db with logs := logs, logSequence := sequence } := by
  obtain ⟨record, _, inserted⟩ := except_bind_ok.mp ran
  exact insertSafeLog_ok inserted

theorem insertTurn_ok (ran : insertTurn codec db sessionId ordinal turn requestToken = .ok after) :
    ∃ turns privateRefs policies,
      TurnAdded codec db sessionId ordinal turn turns privateRefs policies ∧
      after = { db with turns := turns, turnPrivateRefs := privateRefs, turnPolicies := policies } := by
  unfold insertTurn insertTurnRow insertTurnPrivateRefs at ran
  simp only [except_bind_ok, ensure_ok, orFail_ok] at ran
  obtain ⟨_, _, startedAt, started, updatedAt, updated, terminalAt, terminal, _, ⟨_, _, turns,
    turnInserted, turnMade⟩, _, ⟨_, _, privateRefs, refsInserted, refsMade⟩, policies,
    policyInserted, made⟩ := ran
  cases turnMade
  cases refsMade
  cases made
  refine ⟨turns, privateRefs, policies, ⟨⟨_, turnInserted, rfl, rfl, ?_⟩, ?_, policyInserted⟩, rfl⟩
  · exact ⟨rfl, parseStateRevision_format _, rfl, parseTime_format started,
      parseTime_format updated, parseTime_formatOption terminal, parseSafeSummary_token _⟩
  · exact ⟨_, refsInserted, rfl, requestToken.valid, rfl⟩

theorem insertInitialSession_ok (first : session.turns.head? = some turn)
    (ran : insertInitialSession codec db session requestToken = .ok after) :
    ∃ sessions privateRefs turns turnRefs policies,
      SessionAdded codec db session sessions privateRefs ∧
      TurnAdded codec db session.id 0 turn turns turnRefs policies ∧
      after = { db with
        sessions := sessions
        sessionPrivateRefs := privateRefs
        turns := turns
        turnPrivateRefs := turnRefs
        turnPolicies := policies } := by
  unfold insertInitialSession at ran
  simp only [except_bind_ok, ensure_ok, orFail_ok] at ran
  obtain ⟨_, identified, _, rfl, createdAt, created, updatedAt, updated, sessions, inserted,
    privateRefs, refsInserted, head, isHead, turnRan⟩ := ran
  cases first.symm.trans isHead
  obtain ⟨turns, turnRefs, policies, added, rfl⟩ := insertTurn_ok turnRan
  refine ⟨sessions, privateRefs, turns, turnRefs, policies, ⟨⟨_, inserted, rfl, ?_⟩,
    ⟨_, refsInserted, rfl, rfl, rfl, rfl, rfl⟩, identified⟩, ⟨added.turns, added.privateRefs, added.policies⟩, rfl⟩
  exact ⟨rfl, parseStateRevision_format _, parseTime_format created, parseTime_format updated⟩

theorem updateSessionRow_ok (ran : updateSessionRow codec db session expected = .ok after) :
    ∃ sessions, SessionMoved codec db session expected sessions ∧
      after = { db with sessions := sessions } := by
  unfold updateSessionRow at ran
  simp only [except_bind_ok, orFail_ok] at ran
  obtain ⟨updatedAt, updated, sessions, moved, made⟩ := ran
  cases made
  exact ⟨sessions, ⟨updatedAt, parseTime_format updated, moved⟩, rfl⟩

theorem persistLifecycleMutation_ok
    (ran : persistLifecycleMutation codec db session turnId expected = .ok after) :
    ∃ turn sessions turns, session.turn turnId = some turn ∧
      SessionMoved codec db session expected.session sessions ∧
      TurnMoved codec db session.id turn expected.turn turns ∧
      after = { db with sessions := sessions, turns := turns } := by
  unfold persistLifecycleMutation at ran
  simp only [except_bind_ok, orFail_ok] at ran
  obtain ⟨_, sessionRan, turn, found, updatedAt, updated, terminalAt, terminal, turns, moved,
    made⟩ := ran
  obtain ⟨sessions, sessionMoved, rfl⟩ := updateSessionRow_ok sessionRan
  cases made
  obtain rfl : turn.id = turnId := by simpa using List.find?_some found
  exact ⟨turn, sessions, turns, found, sessionMoved,
    ⟨updatedAt, terminalAt, parseTime_format updated, parseTime_formatOption terminal, moved⟩, rfl⟩

theorem setLeaseState_ok (ran : setLeaseState db sessionId turnId leaseState = .ok after) :
    ∃ leases, db.controlLeases.updateOne (ControlLeaseRow.ownedBy sessionId turnId)
        (fun lease => { lease with leaseState := leaseState }) (fun _ => rfl) = some leases ∧
      after = { db with controlLeases := leases } := by
  unfold setLeaseState at ran
  simp only [except_bind_ok, orFail_ok] at ran
  obtain ⟨leases, moved, made⟩ := ran
  cases made
  exact ⟨leases, moved, rfl⟩

theorem synchronizeControlLease_ok (found : session.turn turnId = some turn)
    (ran : synchronizeControlLease db session turnId = .ok after) :
    ∃ leases, LeaseFollows db.controlLeases session.id turnId turn.state leases ∧
      after = { db with controlLeases := leases } := by
  simp only [synchronizeControlLease, found, except_bind_ok, orFail_ok, Option.some.injEq,
    exists_eq_left'] at ran
  cases terminal : turn.state.isTerminal with
  | true =>
    simp only [terminal, if_true, except_bind_ok, orFail_ok] at ran
    obtain ⟨leases, removed, made⟩ := ran
    cases made
    exact ⟨leases, by simp [LeaseFollows, terminal, removed], rfl⟩
  | false =>
    simp only [terminal, Bool.false_eq_true, if_false] at ran
    obtain ⟨leases, moved, made⟩ := setLeaseState_ok ran
    exact ⟨leases, by simp [LeaseFollows, terminal, moved], made⟩

theorem insertIdempotency_ok
    (ran : insertIdempotency codec db input "in_progress" outcome sessionId turnId = .ok after) :
    ∃ records, RecordOpened db.idempotencyRecords input outcome sessionId turnId records ∧
      after = { db with idempotencyRecords := records } := by
  unfold insertIdempotency at ran
  simp only [except_bind_ok, orFail_ok, ensure_ok] at ran
  obtain ⟨createdAt, _, expiresAt, _, _, _, _, _, records, inserted, made⟩ := ran
  cases made
  refine ⟨records, ⟨_, inserted, ?_⟩, rfl⟩
  exact ⟨rfl, by simp [IdempotencyRow.matches], rfl, rfl, rfl, rfl, rfl⟩

theorem updateTurnIdempotency_ok (found : session.turn turnId = some turn)
    (ran : updateTurnIdempotency codec db session turnId time = .ok after) :
    ∃ records, RecordFollows codec db.idempotencyRecords session turnId turn.state records ∧
      after = { db with idempotencyRecords := records } := by
  simp only [updateTurnIdempotency, found, except_bind_ok, orFail_ok, Option.some.injEq,
    exists_eq_left'] at ran
  cases terminal : turn.state.isTerminal with
  | true =>
    simp only [terminal, if_true, except_bind_ok, orFail_ok] at ran
    obtain ⟨completedAt, _, updatedAt, updated, expiresAt, _, records, moved, made⟩ := ran
    cases made
    refine ⟨records, ⟨_, _, moved, fun record => ⟨?_, ?_⟩⟩, rfl⟩
    · exact ⟨rfl, rfl, rfl, rfl, rfl, rfl, rfl, rfl⟩
    · refine ⟨rfl, ?_, fun _ => ⟨rfl, rfl, updatedAt, rfl, parseTime_format updated⟩⟩
      intro running
      rw [terminal] at running
      cases running
  | false =>
    simp only [terminal, Bool.false_eq_true, if_false, except_bind_ok, orFail_ok] at ran
    obtain ⟨records, moved, made⟩ := ran
    cases made
    refine ⟨records, ⟨_, _, moved, fun record => ⟨?_, ?_⟩⟩, rfl⟩
    · exact ⟨rfl, rfl, rfl, rfl, rfl, rfl, rfl, rfl⟩
    · refine ⟨rfl, fun _ => rfl, ?_⟩
      intro ended
      rw [terminal] at ended
      cases ended

theorem completeStopIdempotency_ok
    (ran : completeStopIdempotency codec db input token session time = .ok after) :
    ∃ records, StopClosed codec db.idempotencyRecords input token session records ∧
      after = { db with idempotencyRecords := records } := by
  unfold completeStopIdempotency at ran
  simp only [except_bind_ok, orFail_ok] at ran
  obtain ⟨completedAt, _, expiresAt, _, updatedAt, updated, records, closed, made⟩ := ran
  cases made
  refine ⟨records, ⟨_, _, closed, fun record => ⟨?_, ?_⟩⟩, rfl⟩
  · exact ⟨rfl, rfl, rfl, rfl, rfl, rfl, rfl, rfl⟩
  · exact ⟨rfl, rfl, rfl, updatedAt, rfl, parseTime_format updated⟩

theorem loadRecoverySubject_ok (ran : loadRecoverySubject codec db session turnId = .ok subject) :
    subject.sessionId = session.id ∧ subject.turnId = turnId := by
  unfold loadRecoverySubject at ran
  simp only [except_bind_ok, orFail_ok] at ran
  obtain ⟨_, _, _, _, _, _, _, _, _, _, _, _, _, _, _, _, _, _, made⟩ := ran
  cases made
  exact ⟨rfl, rfl⟩

end Satelle.StoreStatements
