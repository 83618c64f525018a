import Satelle.LogHistory
import Satelle.QueueRuns

/-! Which transactions on the queue commit. A request is withdrawn, admitted or failed
together with a log entry, and the entry is accepted as long as the Session that the
request names is still stored. -/
namespace Satelle.QueueCommits
open Satelle.Core Lib Host QueueChanges QueueEntries QueueHistory LogHistory StoreRows StoreStatements
open SessionLifecycle StoreRefinement QueueRuns
open StorageError (fail)

/-! ## The log entry -/

/-- A 64-bit time in nanoseconds is one of the years that have a text. -/
theorem format_bounded (bounds : -2 ^ 63 ≤ instant ∧ instant < 2 ^ 63) :
    ∃ text, Rfc3339.format instant = some text := by
  have formatted : Rfc3339.Formatted instant := by
    obtain ⟨low, high⟩ := bounds
    have first : (2 : Int) ^ 63 ≤ Rfc3339.epoch := by decide +kernel
    have last : (2 : Int) ^ 63 + Rfc3339.epoch ≤ Rfc3339.endOfTime := by decide +kernel
    unfold Rfc3339.Formatted
    omega
  exact ⟨_, Rfc3339.format_eq_some.mpr ⟨formatted, rfl⟩⟩

/-- An entry about a record is accepted. -/
structure Loggable (db : Database) (event : LogEvent) (record : StoredQueueRecord) : Prop where
  valid : record.status.validate = .ok ()
  fits : event.matchesQueueStatus record.status.status = true
  referenced : (LogSubject.queue record.desktopBinding record.status).columns.referenced db = true

theorem queueLog_commits (loggable : Loggable db event record) (severity : LogSeverity)
    (time : OffsetDateTime) :
    queueLog event severity record.desktopBinding record.status time =
      .ok ⟨time, event.source, severity, event, .queue record.desktopBinding record.status⟩ := by
  unfold queueLog SafeLogRecord.new
  simp only [except_bind_ok, ensure_ok]
  have kind : event.subjectKind = .queue := by
    have fits := loggable.fits
    cases event <;> cases record.status.status <;> first | rfl | cases fits
  refine ⟨(), kind, (), ?_, rfl⟩
  simp [LogSubject.fits, loggable.valid, loggable.fits, Except.isOk, Except.toBool]

theorem logQueue_commits
    (chronicle : Chronicle db) (clocked : ∀ id, -2 ^ 63 ≤ clock id ∧ clock id < 2 ^ 63)
    (each : ∀ record ∈ records, Loggable db event record) :
    ∃ after, logQueue db event severity clock records = .ok after := by
  refine foldlM_exists (fun middle => Chronicle middle ∧ middle.sessions = db.sessions ∧
    middle.turns = db.turns) ?_ ⟨chronicle, rfl, rfl⟩
  rintro record member middle ⟨kept, sessions, turns⟩
  have loggable := each record member
  have referenced : (LogSubject.queue record.desktopBinding record.status).columns.referenced
      middle = true := by
    have was := loggable.referenced
    unfold LogSubjectColumns.referenced at was ⊢
    rwa [sessions, turns]
  obtain ⟨text, written⟩ :=
    format_bounded (entered_time kept (clocked record.status.queueRequestId) rfl).2
  obtain ⟨after, inserted⟩ : ∃ after, insertSafeLog rfc3339 middle
      ⟨clock record.status.queueRequestId, event.source, severity, event,
        .queue record.desktopBinding record.status⟩ = .ok after := by
    simp only [insertSafeLog, except_bind_ok, formatTime_ok, ensure_ok]
    exact ⟨_, _, if_pos (clocked _), text, written, (), referenced, rfl⟩
  refine ⟨after, except_bind_ok.mpr ⟨_, queueLog_commits loggable severity _, inserted⟩, ?_⟩
  obtain ⟨logs, sequence, entered, rfl⟩ := insertSafeLog_ok inserted
  exact ⟨steps_chronicle kept (entered_steps entered), sessions, turns⟩

/-! ## The request -/

/-- What a request names is stored. -/
def Named (db : Database) (row : QueueRow) : Prop :=
  (∀ id ∈ row.sessionId, (db.sessions.lookup id).isSome = true) ∧
    ∀ id ∈ row.turnId, (db.turns.lookup id).isSome = true

theorem asStr_inj {a b : QueueRequestStatus} (same : a.asStr = b.asStr) : a = b := by
  cases a <;> cases b <;> first | rfl | simp [QueueRequestStatus.asStr] at same

theorem encoded_loggable (encodes : Encodes row entry) (inState : row.status = status.asStr)
    (fits : event.matchesQueueStatus status = true) (named : Named db row) :
    Loggable db event (entry.record queue row) where
  valid := encodes.validate
  fits := by
    have same : entry.state.status = status := asStr_inj (encodes.status.symm.trans inState)
    show event.matchesQueueStatus entry.state.status = true
    rw [same]
    exact fits
  referenced := by
    obtain ⟨session, turn⟩ := named
    rw [encodes.sessionId] at session
    rw [encodes.turnId] at turn
    show ((((entry.state.sessionId entry.asked).map (·.text)).all fun id =>
      (db.sessions.lookup id).isSome) && (entry.state.turnId.map (·.text)).all fun id =>
        (db.turns.lookup id).isSome) = true
    rw [Bool.and_eq_true, Option.all_eq_true, Option.all_eq_true]
    exact ⟨session, turn⟩

/-- A row of the table is read back. -/
theorem require_row (sound : Sound queue)
    (found : queue.lookup queueRequestId.text = some row) :
    ∃ entry, Encodes row entry ∧
      requireQueueRecord queue queueRequestId = .ok (entry.record queue row) := by
  obtain ⟨entry, encodes⟩ := sound.entries row (Table.lookup_eq_some.mp found).1
  refine ⟨entry, encodes, except_bind_ok.mpr ⟨some (entry.record queue row), ?_, rfl⟩⟩
  rw [loadQueueRecordUnowned, found]
  dsimp only
  rw [encodes.decode fun _ => position_small sound row]
  rfl

theorem load_own (found : queue.lookup queueRequestId.text = some row)
    (own : row.principalRef = principalRef)
    (required : requireQueueRecord queue queueRequestId = .ok record) :
    loadQueueRecord queue principalRef queueRequestId = .ok (some record) := by
  unfold requireQueueRecord loadQueueRecordUnowned at required
  unfold loadQueueRecord
  simp only [found, except_bind_ok, orFail_ok] at required
  obtain ⟨_, decoded, rfl⟩ := required
  simp only [found, if_pos own]
  exact decoded

theorem updateQueued_commits (selected : QueueRow → Bool)
    (change : QueueRow → QueueRow) (keeps : ∀ row, (change row).queueRequestId = row.queueRequestId)
    (unexhausted : ∀ row ∈ queue.rows, row.stateRevision + 1 < 2 ^ 63) :
    ∃ after, updateQueued queue selected change keeps = .ok after := by
  unfold updateQueued
  simp only [except_bind_ok, ensure_ok]
  refine ⟨_, (), ?_, rfl⟩
  rw [List.all_eq_true]
  intro row member
  rw [Bool.or_eq_true]
  exact .inr (decide_eq_true (unexhausted row member))

/-- A request that a statement moves, as it is read back, with the entry about it. -/
theorem moved_record
    (event : LogEvent)
    (sound : Sound queue) (updated : updateQueued queue selected change keeps = .ok after)
    (moves : ∀ row, Move row { change row with stateRevision := row.stateRevision + 1 })
    (member : row ∈ queue.rows) (waits : row.waits selected = true)
    {queueRequestId : QueueRequestId} (isRow : row.queueRequestId = queueRequestId.text)
    (inState : (change row).status = status.asStr) (fits : event.matchesQueueStatus status = true)
    (named : Named db (change row)) :
    after.lookup queueRequestId.text =
        some { change row with stateRevision := row.stateRevision + 1 } ∧
      ∃ record, requireQueueRecord after queueRequestId = .ok record ∧
        record.status.status = status ∧ Loggable db event record := by
  have there : { change row with stateRevision := row.stateRevision + 1 } ∈ after.rows := by
    rw [updateQueued_ok updated, Table.rows_updateWhere]
    exact List.mem_map.mpr ⟨row, member, if_pos waits⟩
  have found : after.lookup queueRequestId.text =
      some { change row with stateRevision := row.stateRevision + 1 } :=
    Table.lookup_eq_some.mpr ⟨there, (keeps row).trans isRow⟩
  obtain ⟨entry, encodes, required⟩ :=
    require_row (step_sound sound (updateQueued_update updated moves).step) found
  exact ⟨found, _, required, asStr_inj (encodes.status.symm.trans inState),
    encoded_loggable encodes inState fits named⟩

/-- The queue and the log of a state, and the clock and the revisions that the columns
can hold. -/
structure Ready (state : QueueStore) : Prop where
  sound : Sound state.queue
  chronicle : Chronicle state.store
  unexhausted : ∀ row ∈ state.queue.rows, row.stateRevision + 1 < 2 ^ 63

theorem oldPositions_commits (selected : QueueRow → Bool) (sound : Sound queue) :
    ∃ old, oldPositions queue selected = .ok old ∧ ∀ pair ∈ old, ∃ row ∈ queue.rows,
      row.waits selected = true ∧ row.queueRequestId = pair.1.text := by
  have each : ∀ row ∈ queue.rows.filter (·.waits selected), ∃ pair : QueueRequestId × Nat,
      (do
        let id ← selectedId row
        let record ← requireQueueRecord queue id
        let position ← orFail .invalidStoredState record.status.position
        return (id, position) : Except StorageError (QueueRequestId × Nat)) = .ok pair := by
    intro row among
    obtain ⟨member, waits⟩ := List.mem_filter.mp among
    obtain ⟨entry, encodes, decoded⟩ := decode_sound sound member
    simp only [except_bind_ok, orFail_ok]
    refine ⟨_, _, selectedId_encodes encodes, _, (require_sound sound member encodes).trans decoded,
      queuePosition queue row, ?_, rfl⟩
    show shownPosition queue row = some (queuePosition queue row)
    rw [shownPosition, if_pos (Bool.and_eq_true_iff.mp waits).1]
  obtain ⟨old, ran⟩ := mapM_exists each
  refine ⟨old, ran, ?_⟩
  intro pair there
  obtain ⟨row, among, read⟩ := (mapM_mem ran).2 _ there
  obtain ⟨member, waits⟩ := List.mem_filter.mp among
  obtain ⟨entry, encodes, _⟩ := decode_sound sound member
  simp only [except_bind_ok] at read
  obtain ⟨id, selected, _, _, _, _, made⟩ := read
  rw [selectedId_encodes encodes] at selected
  cases selected
  cases made
  exact ⟨row, member, waits, encodes.queueRequestId⟩

/-- The records of a withdrawal are read back, and the entries about them accepted. -/
theorem withdrawnRecords_commits
    (each : ∀ pair ∈ old, ∃ record, requireQueueRecord queue pair.1 = .ok record ∧
      Loggable db event record) :
    ∃ records, withdrawnRecords queue old = .ok records ∧
      ∀ record ∈ records.map (·.1), Loggable db event record := by
  have read : ∀ pair ∈ old, ∃ result, (do
      let record ← requireQueueRecord queue pair.1
      return (record, pair.2) : Except StorageError (StoredQueueRecord × Nat)) = .ok result := by
    intro pair there
    obtain ⟨record, required, _⟩ := each pair there
    exact ⟨(record, pair.2), except_bind_ok.mpr ⟨record, required, rfl⟩⟩
  obtain ⟨records, ran⟩ := mapM_exists read
  refine ⟨records, ran, ?_⟩
  intro record member
  obtain ⟨result, there, rfl⟩ := List.mem_map.mp member
  obtain ⟨pair, among, made⟩ := (mapM_mem ran).2 _ there
  obtain ⟨record, required, loggable⟩ := each pair among
  simp only [except_bind_ok] at made
  obtain ⟨_, again, made⟩ := made
  rw [required] at again
  cases again
  cases made
  exact loggable

/-! ## The transactions -/

/-- The Sessions that the waiting requests name are stored. -/
def SessionsStored (state : QueueStore) (selected : QueueRow → Bool) : Prop :=
  ∀ row ∈ state.queue.rows, row.waits selected = true →
    ∀ id ∈ row.sessionId, (state.store.sessions.lookup id).isSome = true

/-- A request that leaves the queue names no Turn, and the Session it named before. -/
theorem SessionsStored.named (stored : SessionsStored state selected) (sound : Sound state.queue)
    (member : row ∈ state.queue.rows) (waits : row.waits selected = true) :
    Named state.store row := by
  obtain ⟨entry, encodes⟩ := sound.entries row member
  refine ⟨stored row member waits, ?_⟩
  rw [encodes.turnId, encodes.isQueued.mp (Bool.and_eq_true_iff.mp waits).1]
  intro id there
  cases there

theorem expire_commits (ready : Ready state) (bounds : -2 ^ 63 ≤ now ∧ now < 2 ^ 63)
    (written : Rfc3339.format now = some cutoff)
    (stored : SessionsStored state (hasQueueExpired cutoff)) :
    ∃ result, expireQueueRequests state now = .ok result := by
  obtain ⟨old, positions, origins⟩ := oldPositions_commits (hasQueueExpired cutoff) ready.sound
  obtain ⟨queue, updated⟩ := updateQueued_commits (hasQueueExpired cutoff)
    (fun row => { row with status := "expired" }) (fun _ => rfl) ready.unexhausted
  have moved : ∀ pair ∈ old, ∃ record, requireQueueRecord queue pair.1 = .ok record ∧
      Loggable state.store .turnQueueExpired record := by
    intro pair there
    obtain ⟨row, member, waits, isRow⟩ := origins pair there
    have named : Named state.store row := stored.named ready.sound member waits
    have inState : "expired" = QueueRequestStatus.asStr .expired := rfl
    obtain ⟨_, record, required, _, loggable⟩ := moved_record .turnQueueExpired ready.sound updated
      (fun _ => .withdrawn (.inr rfl)) member waits isRow inState rfl named
    exact ⟨record, required, loggable⟩
  obtain ⟨records, withdrawn, loggable⟩ := withdrawnRecords_commits moved
  obtain ⟨store, logged⟩ := logQueue_commits ready.chronicle (fun _ => bounds) loggable
  unfold expireQueueRequests
  simp only [except_bind_ok, formatTime_ok]
  exact ⟨_, cutoff, written, old, positions, queue, updated, records, withdrawn, store, logged, rfl⟩

theorem cancel_commits (ready : Ready state) (bounds : -2 ^ 63 ≤ now ∧ now < 2 ^ 63)
    (stored : SessionsStored state (fun row => row.queueRequestId = queueRequestId.text)) :
    ∃ result, cancelQueueRequest state principalRef queueRequestId now = .ok result := by
  unfold cancelQueueRequest
  by_cases own : ∃ row, state.queue.lookup queueRequestId.text = some row ∧
      row.principalRef = principalRef
  · obtain ⟨row, found, rfl⟩ := own
    obtain ⟨entry, encodes, required⟩ := require_row ready.sound found
    rw [load_own found rfl required]
    by_cases queued : (entry.record state.queue row).status.status = .queued
    · obtain ⟨member, isRow⟩ := Table.lookup_eq_some.mp found
      have isQueued : row.isQueued = true := by
        have inState : row.status = QueueRequestStatus.asStr .queued := by
          rw [← queued]
          exact encodes.status
        exact decide_eq_true inState
      have waits : row.waits (fun row => row.queueRequestId = queueRequestId.text) = true :=
        Bool.and_eq_true_iff.mpr ⟨isQueued, decide_eq_true isRow⟩
      obtain ⟨queue, updated⟩ := updateQueued_commits
        (fun row => row.queueRequestId = queueRequestId.text)
        (fun row => { row with status := "cancelled" }) (fun _ => rfl) ready.unexhausted
      have named : Named state.store row := stored.named ready.sound member waits
      have inState : "cancelled" = QueueRequestStatus.asStr .cancelled := rfl
      obtain ⟨found, record, required, cancelled, loggable⟩ := moved_record .turnQueueCancelled
        ready.sound updated (fun _ => .withdrawn (.inl rfl)) member waits isRow inState rfl named
      obtain ⟨store, logged⟩ := logQueue_commits ready.chronicle (fun _ => bounds)
        (List.forall_mem_singleton.mpr loggable)
      have placed : shownPosition state.queue row = some (queuePosition state.queue row) :=
        if_pos isQueued
      refine ⟨(some ⟨record, some (queuePosition state.queue row)⟩, ⟨store, queue⟩), ?_⟩
      refine except_bind_ok.mpr ⟨some (entry.record state.queue row), rfl, ?_⟩
      dsimp only
      rw [if_pos queued]
      simp only [except_bind_ok, orFail_ok]
      refine ⟨_, placed, queue, updated, _, load_own found rfl required, record, rfl, store, ?_, rfl⟩
      rw [if_pos cancelled]
      exact logged
    · exact ⟨_, except_bind_ok.mpr ⟨some (entry.record state.queue row), rfl, if_neg queued⟩⟩
  · have foreign : loadQueueRecord state.queue principalRef queueRequestId = .ok none := by
      unfold loadQueueRecord
      split
      · rfl
      · rename_i row found
        exact if_neg fun same => own ⟨row, found, same⟩
    rw [foreign]
    exact ⟨_, rfl⟩

theorem terminal_commits (update : QueueTerminalUpdate) (ready : Ready state)
    (bounds : -2 ^ 63 ≤ now ∧ now < 2 ^ 63)
    (named : ∀ row ∈ state.queue.rows, row.isQueued = true →
      row.queueRequestId = queueRequestId.text → Named state.store (update.change row)) :
    ∃ result, updateTerminal state queueRequestId update now = .ok result := by
  obtain ⟨queue, updated⟩ := updateQueued_commits
    (fun row => row.queueRequestId = queueRequestId.text) update.change
    update.change_queueRequestId ready.unexhausted
  unfold updateTerminal
  rw [updated]
  by_cases waits : (state.queue.lookup queueRequestId.text).any (·.isQueued) = true
  · obtain ⟨row, found, queued⟩ := (Option.any_eq_true _ _).mp waits
    obtain ⟨member, isRow⟩ := Table.lookup_eq_some.mp found
    have selected : row.waits (fun row => row.queueRequestId = queueRequestId.text) = true :=
      Bool.and_eq_true_iff.mpr ⟨queued, decide_eq_true isRow⟩
    have inState : (update.change row).status = update.status.asStr := by cases update <;> rfl
    have fits : update.event.matchesQueueStatus update.status = true := by cases update <;> rfl
    obtain ⟨_, record, required, _, loggable⟩ := moved_record update.event ready.sound updated
      (terminal_move update) member selected isRow inState fits (named row member queued isRow)
    obtain ⟨store, logged⟩ := logQueue_commits ready.chronicle (fun _ => bounds)
      (List.forall_mem_singleton.mpr loggable)
    refine ⟨(true, ⟨store, queue⟩), ?_⟩
    simp only [except_bind_ok]
    refine ⟨queue, rfl, ?_⟩
    rw [if_pos waits]
    simp only [except_bind_ok]
    exact ⟨_, required, store, logged, rfl⟩
  · exact ⟨_, except_bind_ok.mpr ⟨queue, rfl, if_neg waits⟩⟩

/-! ## Histories -/

/-- A state that some history of a new store arrives at. -/
def ReachableState (state : QueueStore) : Prop :=
  ∃ start, start.queue = .empty ∧ Fresh start.store ∧ EmptyLog start.store ∧ Later start state

theorem ReachableState.ready (reachable : ReachableState state)
    (unexhausted : ∀ row ∈ state.queue.rows, row.stateRevision + 1 < 2 ^ 63) : Ready state := by
  obtain ⟨start, empty, fresh, emptyLog, later⟩ := reachable
  have stored : Host.Later rfc3339 (fun _ _ => True) start.store state.store := by
    clear unexhausted
    induction later with
    | refl => exact .refl
    | @tail middle _ _ step ih =>
      obtain ⟨transaction, _, rfl⟩ := step
      refine ih.trans ?_
      cases transaction with
      | queue call =>
        cases outcome : (serveQueue middle call).1 with
        | error e =>
          show Host.Later rfc3339 _ middle.store (serveQueue middle call).2.store
          rw [serveQueue_error outcome]
          exact .refl
        | ok reply => exact logged_later (served_of (Prod.ext outcome rfl)).logged
      | store call => exact .single ⟨call, trivial, rfl⟩
  have chronicle : Chronicle state.store := later_chronicle fresh emptyLog stored
  exact ⟨reachable_sound ⟨start, empty, later⟩, chronicle, unexhausted⟩

/-- What the call changes is written, and the log entries about it. -/
def Commits (state : QueueStore) (call : QueueCall) : Prop :=
  ∃ reply after, serveQueue state call = (.ok reply, after)

theorem commits_of_ok {run : Except StorageError (α × QueueStore)}
    (ran : ∃ result, run = .ok result) :
    ∃ reply after, transact state make run = (.ok reply, after) := by
  obtain ⟨⟨result, after⟩, rfl⟩ := ran
  exact ⟨make result, after, rfl⟩

/-- The request expires no later than the instant. -/
def expiresBy (now : OffsetDateTime) (row : QueueRow) : Bool :=
  (Rfc3339.format now).any (hasQueueExpired · row)

theorem queue_transitions_commit (reachable : ReachableState state)
    (unexhausted : ∀ row ∈ state.queue.rows, row.stateRevision + 1 < 2 ^ 63)
    (bounds : -2 ^ 63 ≤ now ∧ now < 2 ^ 63) :
    (SessionsStored state (expiresBy now) → Commits state (.expire now)) ∧
    ∀ queueRequestId : QueueRequestId,
      (SessionsStored state (fun row => row.queueRequestId = queueRequestId.text) →
        (∀ principalRef, Commits state (.cancel principalRef queueRequestId now)) ∧
        ∀ failure, Commits state (.failed queueRequestId failure now)) ∧
      ∀ (sessionId : SessionId) (turnId : TurnId),
        (state.store.sessions.lookup sessionId.text).isSome = true →
        (state.store.turns.lookup turnId.text).isSome = true →
        Commits state (.admitted queueRequestId sessionId turnId now) := by
  have ready : Ready state := reachable.ready unexhausted
  refine ⟨?_, ?_⟩
  · intro stored
    obtain ⟨cutoff, written⟩ := format_bounded bounds
    have same : expiresBy now = hasQueueExpired cutoff := by
      funext row
      rw [expiresBy, written, Option.any_some]
    rw [same] at stored
    exact commits_of_ok (expire_commits ready bounds written stored)
  · intro queueRequestId
    refine ⟨?_, ?_⟩
    · intro stored
      refine ⟨fun principalRef => commits_of_ok (cancel_commits ready bounds stored), ?_⟩
      intro failure
      refine commits_of_ok (terminal_commits (.validationFailed failure) ready bounds ?_)
      intro row member queued isRow
      have waits : row.waits (fun row => row.queueRequestId = queueRequestId.text) = true :=
        Bool.and_eq_true_iff.mpr ⟨queued, decide_eq_true isRow⟩
      refine ⟨(stored.named ready.sound member waits).1, ?_⟩
      intro id there
      cases there
    · intro sessionId turnId session turn
      refine commits_of_ok (terminal_commits (.admitted sessionId turnId) ready bounds ?_)
      intro row _ _ _
      refine ⟨?_, ?_⟩
      · intro id there
        cases there
        exact session
      · intro id there
        cases there
        exact turn

/-! A steer waits for a Session whose Turn has ended, and the host sleeps for eight days.
Retention then removes the log entries and the Session. -/

def sampleSteer : NewQueueRecord :=
  { sampleQueueRecord sampleQueueRequestId "steer" (seconds 2) with
    operation := .steer
    sessionId := some sampleSessionId }

def days (count : Int) : Int := seconds (86400 * count)

def sampleHistory : List Transaction := [
  .store sampleBegin,
  .store sampleComplete,
  .queue (.enqueue sampleSteer sampleDepth)]

def steeredState : QueueStore := sampleHistory.foldl performed ⟨emptyStore, .empty⟩

def retiredState : QueueStore :=
  performed steeredState (.store (.pruneExpiredSessionMetadata (days 8) (days 7) (days 7) (days 7)))

theorem steeredState_reachable : ReachableState steeredState := by
  refine ⟨⟨emptyStore, .empty⟩, rfl, emptyStore_fresh, ⟨rfl, rfl, rfl⟩, ?_⟩
  refine .tail (.tail (.single ⟨.store sampleBegin, trivial, rfl⟩)
    ⟨.store sampleComplete, trivial, rfl⟩) ⟨.queue (.enqueue sampleSteer sampleDepth), ?_, rfl⟩
  change seconds 2 < seconds 2 + seconds 60
  decide

theorem retiredState_reachable : ReachableState retiredState := by
  obtain ⟨start, empty, fresh, log, later⟩ := steeredState_reachable
  exact ⟨start, empty, fresh, log, later.tail ⟨.store _, trivial, rfl⟩⟩

theorem queue_transitions_commit_steered : Commits steeredState (.expire (seconds 63)) := by
  have unexhausted : ∀ row ∈ steeredState.queue.rows, row.stateRevision + 1 < 2 ^ 63 := by
    decide +kernel
  refine (queue_transitions_commit steeredState_reachable unexhausted (by decide)).1 ?_
  unfold SessionsStored
  decide +kernel

/-- The three calls that would settle the waiting steer. -/
def sampleSettlements : List QueueCall := [
  .expire (days 8),
  .cancel "principal-test" sampleQueueRequestId (days 8),
  .failed sampleQueueRequestId ⟨"TOKEN_REVOKED", "revoked"⟩ (days 8)]

theorem retired_session_blocks_the_queue :
    ReachableState retiredState ∧
    (steeredState.store.sessions.lookup sampleSessionId.text).isSome = true ∧
    retiredState.store.sessions.rows.length = 0 ∧
    retiredState.queue.rows.map (fun row => (row.isQueued, row.sessionId)) =
      [(true, some sampleSessionId.text)] ∧
    sampleSettlements.map (fun call => (serveQueue retiredState call).1.map fun _ => ()) =
      List.replicate 3 (fail .operationFailed) := by
  refine ⟨retiredState_reachable, ?_⟩
  decide +kernel

end Satelle.QueueCommits
