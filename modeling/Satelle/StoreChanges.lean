import Satelle.StoreStatements
import Satelle.Host.Retention

/-! What a transaction can do to the store, said once. A `Change` is one group
of statements together with what it does to the Sessions the store holds; every
committed transaction is a sequence of changes. The invariants of the store are
proved for a change, not for a transaction. -/
namespace Satelle.StoreChanges
open Satelle.Core Lib Host SessionInvariants SessionLifecycle StoreRows StoreStatements

/-- The Sessions a store is meant to hold. -/
abbrev Sessions := SessionId → Option Session

/-- The store holds exactly these Sessions. -/
structure Represents (codec : TimeCodec) (db : Database) (held : Sessions) : Prop where
  stored : ∀ sessionId session, held sessionId = some session →
    session.id = sessionId ∧ SessionStored codec db session
  absent : ∀ sessionId, held sessionId = none →
    db.sessions.lookup sessionId.text = none ∧ db.turnRows sessionId = []
  owned : ∀ row ∈ db.turns.rows, ∃ sessionId : SessionId, row.sessionId = sessionId.text

/-- Loading tells which Session is held. -/
theorem Represents.load (represents : Represents codec db held) (sessionId : SessionId) :
    loadSession codec db sessionId = .ok (held sessionId) := by
  cases found : held sessionId with
  | none =>
    have absent := (represents.absent sessionId found).1
    simp [loadSession, loadSessionAt, Database.rawSessionRow, absent]
  | some session =>
    obtain ⟨rfl, stored⟩ := represents.stored sessionId session found
    exact load_stored stored

theorem Represents.required (represents : Represents codec db held) :
    loadRequiredSession codec db sessionId = .ok session ↔ held sessionId = some session := by
  unfold loadRequiredSession
  rw [represents.load]
  simp [bind, Except.bind]

/-- No record and no visible tombstone answers the request. -/
structure Unanswered (codec : TimeCodec) (db : Database) (input : IdempotencyInput) : Prop where
  unrecorded : db.idempotencyRecords.lookup input.recordKey = none
  uncancelled : matchingAdmissionCancellation codec db input input.createdAt = .ok none

/-- An outcome a stop may be completed with, given the Turn it is about. -/
def Settles (turn : Turn) : StopCommitOutcome → Prop
  | .stopped _ => turn.state = .stopped
  | .alreadyTerminal state => TerminalTurnState.tryFrom turn.state = some state
  | .notConfirmed _ _ => True

/-- The references a Session is loaded with. -/
def hostAndBinding (row : SessionPrivateRefsRow) : String × String :=
  (row.hostIdentityRef, row.desktopBindingRef)

/-- What the changes of one call may do. -/
structure Permit where
  /-- The stops that may be completed, asked of the Session and the Turn at that
  moment. -/
  closes : Session → TurnId → Prop
  /-- The requests for which a record may be opened. -/
  records : IdempotencyInput → Prop
  /-- The requests whose tombstone may be written. -/
  cancels : IdempotencyInput → Prop
  /-- Only retention removes anything, and it starts no Session. -/
  retires : Prop

/-- With a Session its records are removed, and no tombstone. -/
theorem deleteSessionMetadata_records (removed : deleteSessionMetadata db sessionId = .ok after) :
    after.idempotencyRecords = (db.idempotencyRecords.deleteWhere fun record =>
        record.sessionId = some sessionId.text) ∧
      after.admissionCancellations = db.admissionCancellations := by
  unfold deleteSessionMetadata at removed
  simp only [except_bind_ok, orFail_ok, ensure_ok] at removed
  obtain ⟨_, _, _, _, _, _, made⟩ := removed
  cases made
  exact ⟨rfl, rfl⟩

/-- Runs of the ledger that have ended are removed with their actions. -/
def LedgerPruned (db : Database) (runs : Table SetupRunRow (·.runId))
    (actions : Table SetupActionRow (·.key)) : Prop :=
  ∃ gone : String → Bool,
    runs.rows = db.setupRuns.rows.filter (fun run => !gone run.runId) ∧
    actions.rows = db.setupActions.rows.filter (fun action => !gone action.runId) ∧
    ∀ run ∈ db.setupRuns.rows, gone run.runId = true → run.isTerminal = true

theorem ledgerPruned_none (db : Database) : LedgerPruned db db.setupRuns db.setupActions := by
  refine ⟨fun _ => false, ?_, ?_, ?_⟩
  · exact (List.filter_eq_self.mpr fun _ _ => rfl).symm
  · exact (List.filter_eq_self.mpr fun _ _ => rfl).symm
  · intro run _ gone
    cases gone

theorem LedgerPruned.trans
    (first : LedgerPruned db middle.setupRuns middle.setupActions)
    (second : LedgerPruned middle runs actions) : LedgerPruned db runs actions := by
  obtain ⟨gone, fewerRuns, fewerActions, ended⟩ := first
  obtain ⟨later, restRuns, restActions, terminal⟩ := second
  refine ⟨fun runId => gone runId || later runId, ?_, ?_, ?_⟩
  · rw [restRuns, fewerRuns, List.filter_filter]
    refine List.filter_congr fun run _ => ?_
    rw [Bool.not_or, Bool.and_comm]
  · rw [restActions, fewerActions, List.filter_filter]
    refine List.filter_congr fun action _ => ?_
    rw [Bool.not_or, Bool.and_comm]
  · intro run member removed
    by_cases now : gone run.runId = true
    · exact ended run member now
    · refine terminal run ?_ (by simpa [now] using removed)
      rw [fewerRuns]
      exact List.mem_filter.mpr ⟨member, by simpa using now⟩

/-- The log is pruned, or left as it is. -/
def LogsPruned (db : Database) (logs : List LogRow) (expired : Nat) : Prop :=
  (logs = db.logs ∧ expired = db.expiredThroughCursor) ∨
    ∃ cutoff, pruneExpiredLogs db cutoff = { db with logs := logs, expiredThroughCursor := expired }

/-- One group of statements. -/
inductive Change (codec : TimeCodec) (permit : Permit) (db : Database) (held : Sessions) :
    Database → Sessions → Prop where
  /-- A new Session with its one Turn. -/
  | started (admitting : ¬permit.retires) (formed : WellFormed session)
      (only : session.turns = [turn])
      (starting : turn.state = .starting) (input : IdempotencyInput)
      (isRun : input.operation = .run) (unanswered : Unanswered codec db input)
      (sessionAdded : SessionAdded codec db session sessions privateRefs)
      (turnAdded : TurnAdded codec db session.id 0 turn turns turnRefs policies)
      (leased : LeaseTaken db.controlLeases session turn.id leases)
      (recorded : RecordOpened db.idempotencyRecords input "v1.turn.starting" session.id turn.id
        records) (requested : permit.records input)
      (unmaintained : db.maintenanceLeases.lookup session.hostIdentity.text = none) :
      Change codec permit db held
        { db with
          sessions := sessions
          sessionPrivateRefs := privateRefs
          turns := turns
          turnPrivateRefs := turnRefs
          turnPolicies := policies
          turnAdmissionReadiness := readiness
          controlLeases := leases
          idempotencyRecords := records }
        (Function.update held session.id (some session))
  /-- A follow-up Turn of a held Session. -/
  | appended (known : held before.id = some before) (formed : WellFormed after)
      (appends : Appends before after turn) (input : IdempotencyInput)
      (isSteer : input.operation = .steer) (unanswered : Unanswered codec db input)
      (sessionMoved : SessionMoved codec db after expectedSession sessions)
      (turnAdded : TurnAdded codec db before.id before.turns.length turn turns turnRefs policies)
      (leased : LeaseTaken db.controlLeases after turn.id leases)
      (recorded : RecordOpened db.idempotencyRecords input "v1.turn.starting" before.id turn.id
        records) (requested : permit.records input)
      (unmaintained : db.maintenanceLeases.lookup after.hostIdentity.text = none) :
      Change codec permit db held
        { db with
          sessions := sessions
          turns := turns
          turnPrivateRefs := turnRefs
          turnPolicies := policies
          turnAdmissionReadiness := readiness
          controlLeases := leases
          idempotencyRecords := records }
        (Function.update held before.id (some after))
  /-- The active Turn of a held Session moves, and its lease and record with it. -/
  | advanced (known : held before.id = some before) (formed : WellFormed after)
      (advances : Advances before after last turn)
      (sessionMoved : SessionMoved codec db after expectedSession sessions)
      (turnMoved : TurnMoved codec db before.id turn expectedTurn turns)
      (leaseFollows : LeaseFollows db.controlLeases before.id turn.id turn.state leases)
      (recordFollows : RecordFollows codec db.idempotencyRecords after turn.id turn.state
        records) :
      Change codec permit db held
        { db with
          sessions := sessions
          turns := turns
          controlLeases := leases
          idempotencyRecords := records }
        (Function.update held before.id (some after))
  /-- The lease of an active Turn is set to the state its Turn is in. -/
  | leaseSet (known : held session.id = some session) (found : session.turn turnId = some turn)
      (active : turn.state.isTerminal = false)
      (leaseFollows : LeaseFollows db.controlLeases session.id turnId turn.state leases) :
      Change codec permit db held { db with controlLeases := leases } held
  | probesMarked : Change codec permit db held (markProbeLeases db) held
  /-- A stop of the latest Turn is recorded. -/
  | stopOpened (known : held session.id = some session)
      (last : session.turns.getLast? = some turn) (input : IdempotencyInput)
      (isStop : input.operation = .stop)
      (recorded : RecordOpened db.idempotencyRecords input "v1.stop.pending" session.id turn.id
        records) (requested : permit.records input) :
      Change codec permit db held { db with idempotencyRecords := records } held
  /-- An open stop is completed with the Session as it is now. -/
  | stopClosed (known : held session.id = some session) (found : session.turn turnId = some turn)
      (input : IdempotencyInput) (isStop : input.operation = .stop)
      (record : IdempotencyRow)
      (recorded : db.idempotencyRecords.lookup input.recordKey = some record)
      (ofSession : record.sessionId = some session.id.text)
      (ofTurn : record.turnId = some turnId.text)
      (allowed : permit.closes session turnId) (written : stopOutcomeToken outcome = .ok token)
      (settles : Settles turn outcome)
      (closed : StopClosed codec db.idempotencyRecords input token session records) :
      Change codec permit db held { db with idempotencyRecords := records } held
  /-- Upstream references are filled in. -/
  | referenced
      (sameSessions : ∀ key, (privateRefs.lookup key).map hostAndBinding =
        (db.sessionPrivateRefs.lookup key).map hostAndBinding)
      (sameTurns : ∀ key, (turnRefs.lookup key).map (·.requestToken) =
        (db.turnPrivateRefs.lookup key).map (·.requestToken))
      (merged : mergeObservedReference db sessionId turnId observed =
        .ok { db with sessionPrivateRefs := privateRefs, turnPrivateRefs := turnRefs }) :
      Change codec permit db held
        { db with sessionPrivateRefs := privateRefs, turnPrivateRefs := turnRefs } held
  /-- The tombstone of a request that was not admitted is written. -/
  | cancelled (input : IdempotencyInput)
      (unrecorded : db.idempotencyRecords.lookup input.recordKey = none)
      (others : ∀ key, key ≠ input.recordKey →
        cancellations.lookup key = db.admissionCancellations.lookup key)
      (requested : permit.cancels input) :
      Change codec permit db held { db with admissionCancellations := cancellations } held
  | logged {sequence : Nat}
      (entered : LogsEntered codec (db.logs, db.logSequence) (logs, sequence)) :
      Change codec permit db held { db with logs := logs, logSequence := sequence } held
  /-- Expired data that belongs to no Session is removed. -/
  | swept (fewer : ∀ row ∈ cancellations.rows, row ∈ db.admissionCancellations.rows)
      (pending : ∀ row ∈ db.admissionCancellations.rows, row.outcome ≠ "cancelled" →
        row ∈ cancellations.rows) (retiring : permit.retires)
      (ledger : LedgerPruned db runs actions) (logged : LogsPruned db logs expired) :
      Change codec permit db held
        { db with
          logs := logs
          expiredThroughCursor := expired
          clientCertificateAudit := certificates
          rawDiagnosticAudit := diagnostics
          desktopSnapshotAudit := snapshots
          admissionCancellations := cancellations
          setupRuns := runs
          setupActions := actions } held
  | forgotten (sessionless : ∀ record, gone record = true → record.sessionId = none)
      (retiring : permit.retires) :
      Change codec permit db held
        { db with idempotencyRecords := db.idempotencyRecords.deleteWhere gone } held
  /-- A Session is removed with everything that belongs to it. -/
  | retired (retiring : permit.retires) (removed : deleteSessionMetadata db sessionId = .ok after) :
      Change codec permit db held after (Function.update held sessionId none)

/-- A sequence of changes. -/
inductive Changes (codec : TimeCodec) (permit : Permit) (db : Database) (held : Sessions) :
    Database → Sessions → Prop where
  | none : Changes codec permit db held db held
  | more (before : Changes codec permit db held middle between)
      (change : Change codec permit middle between after held') :
      Changes codec permit db held after held'

theorem Change.changes (change : Change codec permit db held after held') :
    Changes codec permit db held after held' := .more .none change

theorem Changes.trans (first : Changes codec permit db held middle between)
    (second : Changes codec permit middle between after held') :
    Changes codec permit db held after held' := by
  induction second with
  | none => exact first
  | more _ change ih => exact .more ih change

end Satelle.StoreChanges
