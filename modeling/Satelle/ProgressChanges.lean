import Satelle.StoreRepresentation
import Satelle.StoreEffects

/-! The transactions that move an active Turn, as changes: a commit, a restart
and a stop. All three persist a move of the aggregate in the same way. -/
namespace Satelle.ProgressChanges
open Satelle.Core Lib Host SessionInvariants SessionLifecycle StoreRows StoreStatements StoreChanges
open StoreRepresentation StoreEffects

/-! ## Progress -/

private theorem turn_id {session : Session} (found : session.turn turnId = some turn) :
    turn.id = turnId := by
  simpa using List.find?_some found

/-- The Turn that a commit has moved, as the statements find it again. -/
private theorem commit_moves (formed : WellFormed before)
    (commits : Commits before call commit session) (targeted : call.target before = some index)
    (named : before.turn turnId = some (before.turns.get index))
    (found : session.turn turnId = some turn) :
    Advances before session (before.turns.get index) turn ∧ turn.state = commit.state := by
  obtain ⟨moved, advances, state⟩ := commits.advances formed targeted
  have there := advances.turn_after formed
  rw [turn_id named, found] at there
  cases there
  exact ⟨advances, state⟩

/-- The rows of a Session and its active Turn, its record and its lease have
followed a commit. -/
private theorem advance_change {expected : ExpectedRevisions}
    (known : held before.id = some before) (formed : WellFormed before)
    (commits : Commits before call commit session) (targeted : call.target before = some index)
    (named : before.turn turnId = some (before.turns.get index))
    (found : session.turn turnId = some turn)
    (sessionMoved : SessionMoved codec db session expected.session sessions)
    (turnMoved : TurnMoved codec db session.id turn expected.turn turns)
    (leaseFollows : LeaseFollows db.controlLeases session.id turnId turn.state leases)
    (recordFollows : RecordFollows codec db.idempotencyRecords session turnId turn.state records) :
    Change codec permit db held
      { db with
        sessions := sessions
        turns := turns
        controlLeases := leases
        idempotencyRecords := records }
      (Function.update held before.id (some session)) := by
  obtain ⟨advances, _⟩ := commit_moves formed commits targeted named found
  have id := turn_id found
  rw [← id] at leaseFollows recordFollows
  rw [advances.same.id] at turnMoved leaseFollows
  exact .advanced known (commits_wellFormed formed commits) advances sessionMoved turnMoved
    leaseFollows recordFollows

theorem commitLifecycle_changes (represents : Represents codec db held)
    (ran : commitLifecycle codec db sessionId turnId expected transition time =
      .ok (session, after)) :
    ∃ held', Performs codec db held (.commitLifecycle sessionId turnId expected transition time)
        (.session session) held' ∧
      Changes codec permit db held after held' := by
  unfold commitLifecycle at ran
  simp only [except_bind_ok, mapError_ok, represents.required] at ran
  obtain ⟨_, _, before, known, commit, committed, _, persisted, _, leased, _, recorded, _, logged,
    _, errorLogged, returned⟩ := ran
  obtain ⟨rfl, stored⟩ := represents.stored _ _ known
  rcases transitionTurn_cases before turnId expected transition time with
    ⟨e, failed⟩ | ⟨_, moved, ran, commits⟩
  · rw [failed] at committed
    cases committed
  · rw [ran] at committed persisted leased recorded logged errorLogged returned
    cases committed
    cases returned
    obtain ⟨index, targeted⟩ | ⟨_, _, _, _, other⟩ := commits.targeted
    · obtain ⟨turn, sessions, turns, found, sessionMoved, turnMoved, rfl⟩ :=
        persistLifecycleMutation_ok persisted
      obtain ⟨leases, leaseFollows, rfl⟩ := synchronizeControlLease_ok found leased
      obtain ⟨records, recordFollows, rfl⟩ := updateTurnIdempotency_ok found recorded
      obtain ⟨_, _, entered, rfl⟩ := logTurn_ok logged
      have advanced : Change codec permit db held _ _ := advance_change known stored.formed commits
        targeted (find?_of_findFinIdx? targeted) found sessionMoved turnMoved leaseFollows
        recordFollows
      refine ⟨_, .committed known ran, ?_⟩
      unfold logExecutionError at errorLogged
      split at errorLogged
      · obtain ⟨_, _, last, rfl⟩ := logTurn_ok errorLogged
        exact .more (.more .none advanced) (.logged (entered.trans last))
      · cases errorLogged
        exact .more (.more .none advanced) (.logged entered)
    · cases other

/-! ## Recovery after a restart -/

theorem activeTurn_activity (session : Session) :
    activeTurn session.activity =
      (session.turns.find? fun turn => !turn.state.isTerminal).map
        fun turn => (turn.id, turn.revision) := by
  unfold Session.activity
  cases found : session.turns.find? fun turn => !turn.state.isTerminal with
  | none => rfl
  | some turn =>
    have active : turn.state.isTerminal = false := by simpa using List.find?_some found
    cases state : turn.state <;>
      simp_all [SessionActivity.ofActive, activeTurn, TurnState.isTerminal]

/-- The Turn the activity names stands at the active position. -/
private theorem activeTurn_index (formed : WellFormed session)
    (active : activeTurn session.activity = some (turnId, revision))
    (found : session.activeIndex = some index) :
    session.turn turnId = some (session.turns.get index) := by
  rw [activeTurn_activity, find?_of_findFinIdx? found] at active
  cases active
  exact turn_of_mem formed (List.get_mem _ _)

private theorem recovery_lease {turn : Turn} (recovering : turn.state = .recoveryPending)
    (ran : setLeaseState db sessionId turnId "recovery_pending" = .ok after) :
    ∃ leases, LeaseFollows db.controlLeases sessionId turnId turn.state leases ∧
      after = { db with controlLeases := leases } := by
  obtain ⟨leases, moved, made⟩ := setLeaseState_ok ran
  refine ⟨leases, ?_, made⟩
  rw [recovering]
  exact moved

private theorem markActiveRecoveryPending_id (session : Session) (expected : ExpectedRevisions)
    (time : OffsetDateTime) : (session.markActiveRecoveryPending expected time).2.id = session.id := by
  rcases markActiveRecoveryPending_cases session expected time with
    ⟨e, failed⟩ | ⟨same, _⟩ | ⟨_, _, ran, commits, _⟩
  · rw [failed]
  · rw [same]
  · rw [ran]
    cases commits with
    | advanced => rfl

/-- One Session is handed to recovery. -/
private theorem markSessionRecoveryPending_changes (represents : Represents codec db held)
    (ran : markSessionRecoveryPending codec db sessionId now = .ok (subject, after)) :
    ∃ before turnId revision mutation, held sessionId = some before ∧
      activeTurn before.activity = some (turnId, revision) ∧
      (before.markActiveRecoveryPending ⟨before.revision, revision⟩
        (max now before.updatedAt)).1 = .ok mutation ∧
      (subject.sessionId = sessionId ∧ subject.turnId = turnId) ∧
      Changes codec permit db held after
        (Function.update held sessionId (some (restarted now before))) := by
  unfold markSessionRecoveryPending at ran
  simp only [except_bind_ok, mapError_ok, orFail_ok, represents.required] at ran
  obtain ⟨before, known, ⟨turnId, revision⟩, active, mutation, marked, _, persisted, _, leased, _,
    logged, subject, loaded, returned⟩ := ran
  cases returned
  obtain ⟨rfl, stored⟩ := represents.stored _ _ known
  refine ⟨before, turnId, revision, mutation, known, active, marked, ?_, ?_⟩
  · obtain ⟨ofSession, ofTurn⟩ := loadRecoverySubject_ok loaded
    exact ⟨ofSession.trans (markActiveRecoveryPending_id before _ _), ofTurn⟩
  have result : restarted now before = (before.markActiveRecoveryPending
      ⟨before.revision, revision⟩ (max now before.updatedAt)).2 := by
    simp [restarted, active]
  rw [result]
  rcases markActiveRecoveryPending_cases before ⟨before.revision, revision⟩
      (max now before.updatedAt) with
    ⟨e, failed⟩ | ⟨same, index, found, recovering⟩ | ⟨commit, session, ran, commits, recovering⟩
  · rw [failed] at marked
    cases marked
  · rw [same] at marked persisted logged ⊢
    cases marked
    cases persisted
    have named := activeTurn_index stored.formed active found
    obtain ⟨leases, leaseFollows, rfl⟩ := recovery_lease recovering leased
    obtain ⟨_, _, entered, rfl⟩ := logTurn_ok logged
    rw [Function.update_eq_self_iff.mpr known.symm]
    exact .more (.more .none (.leaseSet known named (by rw [recovering]; rfl) leaseFollows))
      (.logged entered)
  · rw [ran] at marked persisted logged ⊢
    cases marked
    simp only [persistRecovery, except_bind_ok] at persisted
    obtain ⟨_, moved, recorded⟩ := persisted
    obtain ⟨index, targeted⟩ | ⟨_, _, _, _, other⟩ := commits.targeted
    · have named := activeTurn_index stored.formed active targeted
      obtain ⟨turn, sessions, turns, found, sessionMoved, turnMoved, rfl⟩ :=
        persistLifecycleMutation_ok moved
      obtain ⟨records, recordFollows, rfl⟩ := updateTurnIdempotency_ok found recorded
      obtain ⟨advances, state⟩ := commit_moves stored.formed commits targeted named found
      obtain ⟨leases, leaseFollows, rfl⟩ := recovery_lease (state.trans recovering) leased
      obtain ⟨_, _, entered, rfl⟩ := logTurn_ok logged
      exact .more (.more .none (advance_change known stored.formed commits targeted named found
        sessionMoved turnMoved (advances.same.id ▸ leaseFollows) recordFollows))
        (.logged entered)
    · cases other

private theorem parse_texts {ids : List SessionId}
    (ran : texts.mapM (fun value => orFail .invalidStoredState (PublicId.parse value)) = .ok ids) :
    ids.map (·.text) = texts := by
  induction texts generalizing ids with
  | nil =>
    cases ran
    rfl
  | cons value rest ih =>
    rw [List.mapM_cons] at ran
    simp only [except_bind_ok, orFail_ok] at ran
    obtain ⟨id, parsed, others, more, made⟩ := ran
    cases made
    rw [List.map_cons, ih more, PublicId.parse_eq_some.mp parsed]

/-- The Sessions a restart visits: each once, and exactly those with an active
Turn. -/
private theorem activeSessionIds_ok (represents : Represents codec db held)
    (ran : activeSessionIds db = .ok ids) :
    ids.Nodup ∧ ∀ sessionId, sessionId ∈ ids ↔
      ∃ session, held sessionId = some session ∧
        ∃ turn ∈ session.turns, turn.state.isTerminal = false := by
  have texts := parse_texts ran
  have order := List.perm_insertionSort (· ≤ ·)
    ((db.turns.rows.filter fun row => isActiveToken row.state).map (·.sessionId)).dedup
  refine ⟨?_, ?_⟩
  · apply List.Nodup.of_map (·.text)
    rw [texts, order.nodup_iff]
    exact List.nodup_dedup _
  · intro sessionId
    have listed : sessionId ∈ ids ↔
        ∃ row ∈ db.turnRows sessionId, isActiveToken row.state = true := by
      have byText : sessionId.text ∈ ids.map (·.text) ↔ sessionId ∈ ids :=
        List.mem_map_of_injective fun _ _ => PublicId.text_inj.mp
      rw [← byText, texts, order.mem_iff, List.mem_dedup, List.mem_map]
      simp only [Database.turnRows, List.mem_filter, decide_eq_true_eq]
      exact exists_congr fun row => and_right_comm
    rw [listed]
    constructor
    · rintro ⟨row, member, active⟩
      cases found : held sessionId with
      | none =>
        rw [(represents.absent sessionId found).2] at member
        cases member
      | some session =>
        obtain ⟨rfl, stored⟩ := represents.stored sessionId session found
        obtain ⟨turn, there, rowStored⟩ := stored.turn_of_row member
        rw [rowStored.columns.state, isActiveToken_token] at active
        exact ⟨session, rfl, turn, there, by simpa using active⟩
    · rintro ⟨session, found, turn, member, active⟩
      obtain ⟨rfl, stored⟩ := represents.stored sessionId session found
      obtain ⟨row, there, rowStored⟩ := stored.row_of_turn member
      refine ⟨row, there, ?_⟩
      rw [rowStored.columns.state, isActiveToken_token, active]
      rfl

/-- The subject that a restart makes of the active Turn of a Session. -/
def OfActive (held : Sessions) (subject : RecoverySubject) : Prop :=
  ∃ session revision, held subject.sessionId = some session ∧
    activeTurn session.activity = some (subject.turnId, revision)

/-- The loop visits each Session once and leaves the others. -/
private theorem restart_loop {clock : SessionId → OffsetDateTime} {ids : List SessionId}
    (represents : Represents codec db held) (distinct : ids.Nodup)
    (ran : ids.foldlM (fun (subjects, db) sessionId => do
      let (subject, db) ← markSessionRecoveryPending codec db sessionId (clock sessionId)
      return (subjects ++ [subject], db)) (subjects, db) = .ok (result, after)) :
    Changes codec permit db held after (fun sessionId =>
        if sessionId ∈ ids then (held sessionId).map (restarted (clock sessionId))
        else held sessionId) ∧
      (∀ sessionId ∈ ids, ∃ before turnId revision mutation, held sessionId = some before ∧
        activeTurn before.activity = some (turnId, revision) ∧
        (before.markActiveRecoveryPending ⟨before.revision, revision⟩
          (max (clock sessionId) before.updatedAt)).1 = .ok mutation) ∧
      ∃ more, result = subjects ++ more ∧ more.map (·.sessionId) = ids ∧
        ∀ subject ∈ more, OfActive held subject := by
  induction ids generalizing db held subjects with
  | nil =>
    cases ran
    refine ⟨by simpa using Changes.none, by simp, [], by simp, rfl, by simp⟩
  | cons first rest ih =>
    obtain ⟨fresh, distinct⟩ := List.nodup_cons.mp distinct
    rw [List.foldlM_cons] at ran
    simp only [except_bind_ok] at ran
    obtain ⟨_, ⟨⟨subject, middle⟩, marked, made⟩, ran⟩ := ran
    cases made
    obtain ⟨before, turnId, revision, mutation, known, active, succeeded, ⟨ofSession, rfl⟩,
      changes⟩ := markSessionRecoveryPending_changes represents marked
    obtain ⟨later, visited, more, rfl, rfl, ofActive⟩ :=
      ih (changes_represents changes represents) distinct ran
    refine ⟨?_, ?_, subject :: more, by simp, by simp [ofSession], ?_⟩
    · convert changes.trans later using 1
      funext sessionId
      by_cases isFirst : sessionId = first
      · subst isFirst
        simp [fresh, known]
      · simp [isFirst]
    · intro sessionId member
      rcases List.mem_cons.mp member with rfl | member
      · exact ⟨before, _, revision, mutation, known, active, succeeded⟩
      · obtain ⟨other, facts⟩ := visited sessionId member
        have ne : sessionId ≠ first := fun same => fresh (same ▸ member)
        rw [Function.update_of_ne ne] at facts
        exact ⟨other, facts⟩
    · intro other member
      rcases List.mem_cons.mp member with rfl | member
      · exact ⟨before, revision, ofSession ▸ known, active⟩
      · have ne : other.sessionId ≠ first :=
          fun same => fresh (List.mem_map.mpr ⟨other, member, same⟩)
        obtain ⟨session, revision, there, named⟩ := ofActive other member
        rw [Function.update_of_ne ne] at there
        exact ⟨session, revision, there, named⟩

theorem markRestartRecoveryPending_changes (represents : Represents codec db held)
    (ran : markRestartRecoveryPending codec db clock = .ok (subjects, after)) :
    ∃ held', Performs codec db held (.markRestartRecoveryPending clock) (.recovered subjects)
        held' ∧
      Changes codec permit db held after held' := by
  unfold markRestartRecoveryPending at ran
  simp only [except_bind_ok] at ran
  obtain ⟨ids, listed, ran⟩ := ran
  have marked : Change codec permit db held (markProbeLeases db) held := .probesMarked
  have represents' := change_represents marked represents
  obtain ⟨distinct, active⟩ := activeSessionIds_ok represents' listed
  obtain ⟨changes, visited, _⟩ := restart_loop represents' distinct ran
  refine ⟨_, .restarted ?_, ?_⟩
  · intro sessionId session turnId revision known named
    have inside : sessionId ∈ ids := by
      rw [activeTurn_activity, Option.map_eq_some_iff] at named
      obtain ⟨turn, found, _⟩ := named
      exact (active sessionId).mpr ⟨session, known, turn, List.mem_of_find?_eq_some found,
        by simpa using List.find?_some found⟩
    obtain ⟨before, otherId, otherRevision, mutation, same, alsoNamed, succeeded⟩ :=
      visited sessionId inside
    cases known.symm.trans same
    cases named.symm.trans alsoNamed
    exact ⟨mutation, succeeded⟩
  · convert marked.changes.trans changes using 1
    funext sessionId
    by_cases inside : sessionId ∈ ids
    · simp [inside]
    · cases known : held sessionId with
      | none => simp [inside]
      | some session =>
        have idle : activeTurn session.activity = none := by
          rw [activeTurn_activity, Option.map_eq_none_iff, List.find?_eq_none]
          intro turn member busy
          exact inside ((active sessionId).mpr ⟨session, known, turn, member, by simpa using busy⟩)
        simp [inside, restarted, idle]

/-! ## Stops -/

private theorem completeTerminalStop_ok
    (ran : completeTerminalStop codec db input session turnId state time = .ok (commit, after)) :
    ∃ token records logs sequence, stopOutcomeToken (.alreadyTerminal state) = .ok token ∧
      StopClosed codec db.idempotencyRecords input token session records ∧
      LogsEntered codec (db.logs, db.logSequence) (logs, sequence) ∧
      after = { db with
        idempotencyRecords := records, logs := logs, logSequence := sequence } := by
  unfold completeTerminalStop at ran
  simp only [except_bind_ok] at ran
  obtain ⟨token, written, _, completed, _, logged, returned⟩ := ran
  obtain ⟨records, closed, rfl⟩ := completeStopIdempotency_ok completed
  obtain ⟨logs, sequence, entered, rfl⟩ := logTurn_ok logged
  cases returned
  exact ⟨token, records, logs, sequence, written, closed, entered, rfl⟩

private theorem resumeStop_changes (represents : Represents codec db held)
    (recorded : db.idempotencyRecords.lookup input.recordKey = some record)
    (same : record.matches input = true) (pending : record.status ≠ "terminal")
    (ofSession : record.sessionId = some sessionId.text)
    (ofTurn : record.turnId = some turnId.text)
    (ran : resumeStop codec db sessionId turnId input isStop now = .ok (outcome, after)) :
    Changes codec (stopping codec db input) db held after held := by
  unfold resumeStop at ran
  simp only [except_bind_ok, orFail_ok, represents.required] at ran
  obtain ⟨session, known, turn, found, ran⟩ := ran
  obtain ⟨rfl, _⟩ := represents.stored _ _ known
  cases terminal : TerminalTurnState.tryFrom turn.state with
  | some state =>
    simp only [terminal, except_bind_ok] at ran
    obtain ⟨_, _, ⟨commit, final⟩, completed, returned⟩ := ran
    cases returned
    obtain ⟨token, records, logs, sequence, written, closed, entered, rfl⟩ :=
      completeTerminalStop_ok completed
    have allowed : completes codec db input session turnId := by
      simp [completes, recorded, same, pending, ofSession, ofTurn, represents.load, known]
    exact .more (.more .none (.stopClosed known found input isStop record recorded ofSession ofTurn
      allowed written terminal closed)) (.logged entered)
  | none =>
    simp only [terminal, except_bind_ok] at ran
    obtain ⟨_, _, subject, _, returned⟩ := ran
    cases returned
    exact .none

private theorem openStop_changes (represents : Represents codec db held)
    (unrecorded : db.idempotencyRecords.lookup input.recordKey = none)
    (ran : openStop codec db sessionId expectedTurnId input isStop = .ok (outcome, after)) :
    Changes codec (stopping codec db input) db held after held := by
  unfold openStop at ran
  simp only [except_bind_ok, orFail_ok, ensure_ok, represents.required] at ran
  obtain ⟨session, known, last, isLast, _, _, turn, found, ran⟩ := ran
  obtain ⟨rfl, _⟩ := represents.stored _ _ known
  cases terminal : TerminalTurnState.tryFrom turn.state with
  | some state =>
    simp only [terminal, except_bind_ok] at ran
    obtain ⟨_, inserted, ⟨commit, final⟩, completed, returned⟩ := ran
    cases returned
    obtain ⟨records, opened, rfl⟩ := insertIdempotency_ok inserted
    obtain ⟨token, closedRecords, logs, sequence, written, closed, entered, rfl⟩ :=
      completeTerminalStop_ok completed
    obtain ⟨record, insertedRecord, isOpened⟩ := opened
    have recorded : records.lookup input.recordKey = some record := by
      rw [Table.lookup_insert insertedRecord, if_pos isOpened.key]
    have allowed : completes codec db input session last.id := by
      simp [completes, unrecorded, lastTurnId, isLast]
    exact .more (.more (.more .none (.stopOpened known isLast input isStop
      ⟨record, insertedRecord, isOpened⟩ rfl)) (.stopClosed known found input isStop record recorded
      isOpened.session isOpened.turn allowed written terminal closed)) (.logged entered)
  | none =>
    simp only [terminal, except_bind_ok] at ran
    obtain ⟨_, _, subject, _, _, inserted, returned⟩ := ran
    cases returned
    obtain ⟨records, opened, rfl⟩ := insertIdempotency_ok inserted
    exact .more .none (.stopOpened known isLast input isStop opened rfl)

theorem beginStop_changes (represents : Represents codec db held)
    (ran : beginStop codec db sessionId expectedTurnId input now = .ok (outcome, after)) :
    Changes codec (stopping codec db input) db held after held := by
  unfold beginStop at ran
  split at ran
  · rename_i isStop
    simp only [except_bind_ok] at ran
    obtain ⟨found, matching, ran⟩ := ran
    obtain ⟨recorded, same⟩ := matchingIdempotency_ok.mp matching
    cases found with
    | some record =>
      simp only [except_bind_ok, stopRecordTurnId, orFail_ok, ensureRecordHandles, ensure_ok] at ran
      obtain ⟨turnId, ⟨_, _, _, handles, made⟩, ran⟩ := ran
      cases made
      by_cases ended : record.status = "terminal"
      · simp only [ended, if_true, except_bind_ok] at ran
        obtain ⟨commit, _, returned⟩ := ran
        cases returned
        exact .none
      · simp only [ended, if_false] at ran
        split at ran
        · cases ran
        · exact resumeStop_changes represents recorded (same record rfl) ended handles.1 handles.2
            ran
    | none => exact openStop_changes represents recorded ran
  · cases ran

/-- Moving an admission record leaves the record of a stop. -/
private theorem recordFollows_stop {input : IdempotencyInput}
    (follows : RecordFollows codec records session turnId state after)
    (isStop : input.operation = .stop) :
    after.lookup input.recordKey = records.lookup input.recordKey := by
  obtain ⟨move, keeps, moved, _⟩ := follows
  obtain ⟨_, rfl⟩ := Table.updateOne_eq_some.mp moved
  rw [Table.lookup_updateWhere]
  cases found : records.lookup input.recordKey with
  | none => rfl
  | some record =>
    have key := (Table.lookup_eq_some.mp found).2
    have operation : record.operation = "stop" := by
      have same := congrArg (fun key => key.2.1) key
      simpa [IdempotencyRow.key, IdempotencyInput.recordKey, isStop, idempotentOperationToken]
        using same
    simp [patch, IdempotencyRow.admits, operation]

/-- The end of `confirm_stop`: the record is completed and the outcome logged. -/
private theorem settled_changes {claim : StopClaim}
    (changes : Changes codec permit db held middle between)
    (known : between session.id = some session) (found : session.turn turnId = some turn)
    (recorded : middle.idempotencyRecords.lookup claim.idempotency.recordKey = some record)
    (ofSession : record.sessionId = some session.id.text)
    (ofTurn : record.turnId = some turnId.text) (allowed : permit.closes session turnId)
    (written : stopOutcomeToken outcome = .ok token) (settles : Settles turn outcome)
    (completed : completeStopIdempotency codec middle claim.idempotency token session time =
      .ok final)
    (logged : logTurn codec final event severity session turnId time = .ok after) :
    Changes codec permit db held after between := by
  obtain ⟨records, closed, rfl⟩ := completeStopIdempotency_ok completed
  obtain ⟨logs, sequence, entered, rfl⟩ := logTurn_ok logged
  exact .more (.more changes (.stopClosed known found claim.idempotency claim.isStop record recorded
    ofSession ofTurn allowed written settles closed)) (.logged entered)

theorem advances_lastTurnId (advances : Advances before session last turn) :
    lastTurnId before = lastTurnId session := by
  obtain ⟨earlier, shape, changed⟩ := advances.shape
  simp [lastTurnId, shape, changed, advances.id]

/-- A stop that moved its Turn is persisted like any other commit. -/
private theorem persistStop_changes {claim : StopClaim}
    (known : held before.id = some before) (formed : WellFormed before)
    (commits : Commits before (.stopTurn turnId expected observation time) commit session)
    (persisted : persistStop codec db session turnId expected time true = .ok middle)
    (leased : synchronizeControlLease middle session turnId = .ok after) :
    ∃ turn, session.turn turnId = some turn ∧ turn.state = commit.state ∧ session.id = before.id ∧
      lastTurnId before = lastTurnId session ∧
      after.idempotencyRecords.lookup claim.idempotency.recordKey =
        db.idempotencyRecords.lookup claim.idempotency.recordKey ∧
      Changes codec permit db held after (Function.update held before.id (some session)) := by
  simp only [persistStop, if_true, except_bind_ok] at persisted
  obtain ⟨_, moved, recorded⟩ := persisted
  obtain ⟨index, targeted⟩ | ⟨_, _, _, _, other⟩ := commits.targeted
  · obtain ⟨turn, sessions, turns, found, sessionMoved, turnMoved, rfl⟩ :=
      persistLifecycleMutation_ok moved
    obtain ⟨records, recordFollows, rfl⟩ := updateTurnIdempotency_ok found recorded
    obtain ⟨leases, leaseFollows, rfl⟩ := synchronizeControlLease_ok found leased
    have named := find?_of_findFinIdx? targeted
    obtain ⟨advances, state⟩ := commit_moves formed commits targeted named found
    exact ⟨turn, found, state, advances.same.id, advances_lastTurnId advances,
      recordFollows_stop recordFollows claim.isStop,
      .more .none (advance_change known formed commits targeted named found sessionMoved turnMoved
        leaseFollows recordFollows)⟩
  · cases other

private theorem settleStop_changes (represents : Represents codec db held)
    (recorded : db.idempotencyRecords.lookup claim.idempotency.recordKey = some record)
    (matching : record.matches claim.idempotency = true) (pending : record.status ≠ "terminal")
    (ofSession : record.sessionId = some claim.recoverySubject.sessionId.text)
    (ofTurn : record.turnId = some claim.recoverySubject.turnId.text)
    (ran : settleStop codec db claim observation time = .ok (commit, after)) :
    ∃ before outcome session, held claim.recoverySubject.sessionId = some before ∧
      before.stopTurn claim.recoverySubject.turnId claim.recoverySubject.expectedRevisions
        observation time = (.ok outcome, session) ∧ commit.session = session ∧
      Changes codec (stopping codec db claim.idempotency) db held after
        (Function.update held claim.recoverySubject.sessionId (some session)) := by
  unfold settleStop at ran
  simp only [except_bind_ok, orFail_ok, mapError_ok, represents.required] at ran
  obtain ⟨before, known, previous, named, aggregate, stopped, _, persisted, _, leased, token,
    written, _, completed, _, logged, returned⟩ := ran
  obtain ⟨sameId, stored⟩ := represents.stored _ _ known
  rcases stopTurn_cases before claim.recoverySubject.turnId claim.recoverySubject.expectedRevisions
      observation time with
    ⟨e, failed⟩ | ⟨outcome, session, ran, ends⟩
  · rw [failed] at stopped
    cases stopped
  · rw [ran] at stopped persisted leased completed logged returned
    cases stopped
    cases returned
    refine ⟨before, aggregate, session, known, ran, rfl, ?_⟩
    generalize claim.recoverySubject.turnId = turnId at *
    generalize claim.recoverySubject.expectedRevisions = expected at *
    have mayClose : ∀ other : Session, other.id = before.id → lastTurnId before = lastTurnId other →
        completes codec db claim.idempotency other turnId := by
      intro other same last
      unfold completes
      rw [recorded, same, sameId]
      exact ⟨matching, pending, ofSession, ofTurn, before, by rw [represents.load, known], last⟩
    rw [← sameId] at known ofSession leased ⊢
    cases ends with
    | alreadyTerminal index targeted terminal =>
      cases (find?_of_findFinIdx? targeted).symm.trans named
      cases persisted
      simp only [settleStopLease, stopCommitOutcome, except_bind_ok] at leased
      obtain ⟨_, _, made⟩ := leased
      cases made
      rw [Function.update_eq_self_iff.mpr known.symm]
      exact settled_changes .none known named recorded ofSession ofTurn (mayClose before rfl rfl)
        written terminal completed logged
    | retained index targeted same =>
      cases (find?_of_findFinIdx? targeted).symm.trans named
      cases persisted
      obtain ⟨leases, leaseFollows, rfl⟩ := synchronizeControlLease_ok named leased
      have active : (before.turns.get index).state.isTerminal = false := by
        rw [same]
        exact (retainedState_active _).1
      rw [Function.update_eq_self_iff.mpr known.symm]
      exact settled_changes (.more .none (.leaseSet known named active leaseFollows)) known named
        recorded ofSession ofTurn (mayClose before rfl rfl) written trivial completed logged
    | stopped commits state | moved commits state =>
      obtain ⟨turn, found, moved, kept, last, records, changes⟩ :=
        persistStop_changes known stored.formed commits persisted leased
      refine settled_changes changes (kept ▸ Function.update_self ..) found (records.trans recorded)
        (kept ▸ ofSession) ofTurn (mayClose session kept last) written ?_ completed logged
      first | exact moved.trans state | trivial

theorem confirmStop_changes (represents : Represents codec db held)
    (ran : confirmStop codec db claim observation time = .ok (commit, after)) :
    ∃ held', Performs codec db held (.confirmStop claim observation time) (.stopCommitted commit)
        held' ∧
      Changes codec (stopping codec db claim.idempotency) db held after held' := by
  unfold confirmStop at ran
  simp only [except_bind_ok, orFail_ok, ensureRecordHandles, ensure_ok] at ran
  obtain ⟨found, matching, record, isFound, _, handles, ran⟩ := ran
  cases isFound
  obtain ⟨recorded, same⟩ := matchingIdempotency_ok.mp matching
  by_cases ended : record.status = "terminal"
  · simp only [ended, if_true, except_bind_ok] at ran
    obtain ⟨commit, _, returned⟩ := ran
    cases returned
    exact ⟨held, .stopReplayed matching ended, .none⟩
  · simp only [ended, if_false] at ran
    obtain ⟨before, outcome, session, known, stopped, returned, changes⟩ :=
      settleStop_changes represents recorded (same record rfl) ended handles.1 handles.2 ran
    exact ⟨_, .stopSettled matching ended known stopped returned, changes⟩

end Satelle.ProgressChanges
