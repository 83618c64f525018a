import Satelle.StoreHistory
import Satelle.StoreRefinement

/-! A completed stop is answered from its record: the outcome it was completed
with, and the Session up to the Turn it was about. The record saves the revision
and time of the whole Session, while the replay cuts the history after the
Turn, so the two agree only when the Turn was the last one at that time. -/
namespace Satelle.StopReplays
open Satelle.Core Lib Host SessionInvariants SessionLifecycle StoreRows StoreStatements StoreChanges
open StoreEffects StoreTransactions StoreHistory StoreRefinement

/-- The request of a call that claims or completes a stop. -/
def stopRequest : StoreCall → Option IdempotencyInput
  | .beginStop _ _ input _ => some input
  | .confirmStop claim _ _ => some claim.idempotency
  | _ => none

/-- An open stop is only taken up again while its Turn is still the last one of
its Session. -/
def StopInTime (codec : TimeCodec) (db : Database) (call : StoreCall) : Prop :=
  ∀ input ∈ stopRequest call, ∀ record,
    db.idempotencyRecords.lookup input.recordKey = some record → record.matches input = true →
    record.status ≠ "terminal" → ∀ sessionId session, record.sessionId = some sessionId.text →
    loadSession codec db sessionId = .ok (some session) →
    (lastTurnId session).map (·.text) = record.turnId

theorem permitted_inTime (inTime : StopInTime codec db call)
    (closes : (permitted codec db call).closes session turnId) :
    lastTurnId session = some turnId := by
  have taken : ∀ input, stopRequest call = some input → completes codec db input session turnId →
      lastTurnId session = some turnId := by
    intro input request closing
    unfold completes at closing
    split at closing
    · rename_i record recorded
      obtain ⟨same, pending, ofSession, ofTurn, before, load, last⟩ := closing
      have latest := inTime input request record recorded same pending session.id before ofSession
        load
      rw [last, ofTurn, Option.map_eq_some_iff] at latest
      obtain ⟨lastId, isLast, text⟩ := latest
      rw [isLast, PublicId.text_inj.mp text]
    · exact closing
  cases call with
  | beginStop sessionId expectedTurnId input now => exact taken input rfl closes
  | confirmStop claim observation time => exact taken claim.idempotency rfl closes
  | beginSession | beginFollowUp | commitLifecycle | recordUpstreamRef | markRestartRecoveryPending
  | recordAdmissionCancellation | reconcileAdmissionCancellation | pruneExpiredSessionMetadata
  | appendSafeLog =>
    exact closes.elim

/-! ## Stop records -/

/-- An outcome after which the Turn is terminal. -/
def Confirmed : StopCommitOutcome → Prop
  | .stopped _ => True
  | .alreadyTerminal _ => True
  | .notConfirmed _ _ => False

theorem settles_terminal (confirmed : Confirmed outcome)
    (settles : Settles turn outcome) : turn.state.isTerminal = true := by
  cases outcome with
  | stopped previous =>
    rw [settles]
    rfl
  | alreadyTerminal state =>
    unfold Settles at settles
    cases state' : turn.state <;> simp [state', TerminalTurnState.tryFrom] at settles <;> rfl
  | notConfirmed => exact confirmed.elim

/-- The record of a stop of the Turn at a position of a Session. -/
structure Stops (codec : TimeCodec) (record : IdempotencyRow) (session : Session) (index : Nat)
    (turn : Turn) : Prop where
  place : session.turns[index]? = some turn
  ofSession : record.sessionId = some session.id.text
  ofTurn : record.turnId = some turn.id.text
  ended : record.status = "terminal" → ∃ outcome,
    stopOutcomeToken outcome = .ok record.durableOutcome ∧
      (Confirmed outcome → Settles turn outcome ∧ ∃ revision : SessionStateRevision,
        revision.value = revisionSum (session.turns.take (index + 1)) ∧
          Saves codec record revision turn.updatedAt)

/-- Every record of a stop belongs to a Turn of a held Session. -/
def StopsTrack (codec : TimeCodec) (records : RecordTable) (held : Sessions) : Prop :=
  ∀ record ∈ records.rows, record.operation = "stop" →
    ∃ session index turn, held session.id = some session ∧ Stops codec record session index turn

/-- The record fits every later value of its Session. -/
private theorem stops_later
    (stops : Stops codec record session index turn) (keeps : Keeps session later) :
    ∃ moved, Stops codec record later index moved := by
  obtain ⟨moved, place, sameId⟩ := keeps.placed index turn stops.place
  refine ⟨moved, place, ?_, ?_, ?_⟩
  · rw [keeps.same.id, stops.ofSession]
  · rw [sameId, stops.ofTurn]
  · intro ended
    obtain ⟨outcome, told, saved⟩ := stops.ended ended
    refine ⟨outcome, told, fun confirmed => ?_⟩
    obtain ⟨settles, revision, summed, saves⟩ := saved confirmed
    have terminal := settles_terminal confirmed settles
    obtain rfl : moved = turn :=
      Option.some.inj (place.symm.trans (keeps.turn_at stops.place terminal))
    exact ⟨settles, revision, by rw [keeps.settled index moved stops.place terminal, summed], saves⟩

/-- What is left of the records once a Session has been removed. -/
private theorem removed_records (removed : deleteSessionMetadata db sessionId = .ok after) :
    ∀ record ∈ after.idempotencyRecords.rows,
      record ∈ db.idempotencyRecords.rows ∧ record.sessionId ≠ some sessionId.text := by
  intro record member
  rw [(deleteSessionMetadata_records removed).1] at member
  simpa [List.mem_filter] using member

/-- A record that a change leaves alone keeps belonging to its Turn. -/
private theorem kept_stops (represents : Represents codec db held)
    (change : Change codec permit db held after held')
    (track : StopsTrack codec db.idempotencyRecords held)
    (before : record ∈ db.idempotencyRecords.rows) (member : record ∈ after.idempotencyRecords.rows)
    (isStop : record.operation = "stop") :
    ∃ session index turn, held' session.id = some session ∧
      Stops codec record session index turn := by
  obtain ⟨session, index, turn, known, stops⟩ := track record before isStop
  have there : held session.id ≠ none := by simp [known]
  rcases change_remains change there with remains | ⟨_, removed⟩
  · obtain ⟨later, knownLater⟩ := Option.ne_none_iff_exists'.mp remains
    have keeps := change_session represents change known knownLater
    obtain ⟨moved, stopsLater⟩ := stops_later stops keeps
    exact ⟨later, index, moved, by rw [keeps.same.id, knownLater], stopsLater⟩
  · exact absurd stops.ofSession (removed_records removed record member).2

/-- A record that has just been opened belongs to the Turn it was opened for. -/
private theorem opened_stops (member : turn ∈ session.turns)
    (opened : Opened input token session.id turn.id record) :
    ∃ index, Stops codec record session index turn := by
  obtain ⟨index, place⟩ := List.mem_iff_getElem?.mp member
  refine ⟨index, place, opened.session, opened.turn, fun ended => ?_⟩
  rw [opened.status] at ended
  simp at ended

/-- A record that has just been completed, for the last Turn of the Session. -/
private theorem closed_stops (formed : WellFormed session)
    (found : session.turn turnId = some turn) (latest : lastTurnId session = some turnId)
    (written : stopOutcomeToken outcome = .ok token) (settles : Settles turn outcome)
    (ofSession : record.sessionId = some session.id.text)
    (ofTurn : record.turnId = some turnId.text) (completed : Completed codec token session record) :
    ∃ index, Stops codec record session index turn := by
  obtain ⟨last, isLast, rfl⟩ := Option.map_eq_some_iff.mp latest
  obtain ⟨earlier, shape⟩ := List.getLast?_eq_some_iff.mp isLast
  have isTurn : last = turn := by
    have there := turn_of_mem formed (List.mem_of_getLast? isLast)
    exact Option.some.inj (there.symm.trans found)
  subst isTurn
  have whole : session.turns.take (earlier.length + 1) = session.turns := by
    rw [shape, List.take_of_length_le (by simp)]
  have time : last.updatedAt = session.updatedAt := by simpa [shape] using formed.latest
  refine ⟨earlier.length, by simp [shape], ofSession, ofTurn, fun _ => ?_⟩
  refine ⟨outcome, by rw [written, completed.outcome], fun _ => ⟨settles, session.revision, ?_, ?_⟩⟩
  · rw [whole, formed.summed]
  · rw [time]
    exact completed.saved

theorem change_stops (represents : Represents codec db held)
    (track : StopsTrack codec db.idempotencyRecords held)
    (inTime : ∀ session turnId, permit.closes session turnId → lastTurnId session = some turnId)
    (change : Change codec permit db held after held') :
    StopsTrack codec after.idempotencyRecords held' := by
  intro record member isStop
  have old : record ∈ db.idempotencyRecords.rows → ∃ session index turn,
      held' session.id = some session ∧ Stops codec record session index turn :=
    fun before => kept_stops represents change track before member isStop
  -- a record that was inserted
  have inserted : ∀ {input : IdempotencyInput} {token : String} {sessionId : SessionId}
      {turnId : TurnId} {rows : RecordTable},
      RecordOpened db.idempotencyRecords input token sessionId turnId rows → record ∈ rows.rows →
      record ∈ db.idempotencyRecords.rows ∨ Opened input token sessionId turnId record := by
    rintro input token sessionId turnId rows ⟨row, insertedRow, opened⟩ member
    rw [(Table.insert_eq_some.mp insertedRow).2, List.mem_append, List.mem_singleton] at member
    rcases member with before | rfl
    · exact .inl before
    · exact .inr opened
  cases change with
  | started _ _ _ _ input admits _ _ _ _ recorded | appended _ _ _ input admits _ _ _ _ recorded =>
    rcases inserted recorded member with before | opened
    · exact old before
    · rw [opened.operation, admits] at isStop
      exact absurd isStop (by decide)
  | @advanced _ later _ turn _ _ _ _ _ _ _ _ _ _ _ _ recordFollows =>
    obtain ⟨move, keeps, moved, facts⟩ := recordFollows
    obtain ⟨_, rfl⟩ := Table.updateOne_eq_some.mp moved
    obtain ⟨row, before, rfl⟩ := List.mem_map.mp member
    by_cases hit : row.admits later.id turn.id = true
    · rw [patch, if_pos hit, (facts row).1.operation] at isStop
      simp [IdempotencyRow.admits, isStop] at hit
    · rw [patch, if_neg hit] at old ⊢
      exact old before
  | stopOpened known last input _ recorded =>
    rcases inserted recorded member with before | opened
    · exact old before
    · obtain ⟨index, stops⟩ := opened_stops (List.mem_of_getLast? last) opened
      exact ⟨_, index, _, known, stops⟩
  | stopClosed known found input isStopInput row recorded ofSession ofTurn allowed written settles
      closed =>
    obtain ⟨close, keeps, moved, facts⟩ := closed
    obtain ⟨_, rfl⟩ := Table.updateOne_eq_some.mp moved
    obtain ⟨other, before, rfl⟩ := List.mem_map.mp member
    by_cases hit : isOpenStop input other = true
    · obtain ⟨rowMember, rowKey⟩ := Table.lookup_eq_some.mp recorded
      obtain rfl : other = row := by
        refine Table.row_unique before rowMember (Eq.trans ?_ rowKey.symm)
        simp only [isOpenStop, Bool.and_eq_true, decide_eq_true_eq] at hit
        simp [IdempotencyRow.key, IdempotencyInput.recordKey, hit, isStopInput,
          idempotentOperationToken]
      rw [patch, if_pos hit]
      have same := (facts other).1
      obtain ⟨index, stops⟩ := closed_stops (represents.stored _ _ known).2.formed found
        (inTime _ _ allowed) written settles (same.session.trans ofSession)
        (same.turn.trans ofTurn) (facts other).2
      exact ⟨_, index, _, known, stops⟩
    · rw [patch, if_neg hit] at old ⊢
      exact old before
  | forgotten => exact old (List.mem_of_mem_filter member)
  | retired _ removed => exact old (removed_records removed record member).1
  | leaseSet | probesMarked | referenced | cancelled | logged | swept => exact old member

theorem reachable_stops (reachable : ReachableBy codec (StopInTime codec) db) :
    ∃ held, Represents codec db held ∧ StopsTrack codec db.idempotencyRecords held := by
  refine reachable_invariant (fun db held => StopsTrack codec db.idempotencyRecords held)
    (fun _ fresh record member isStop => absurd isStop (fresh.records record member).2.2.2) ?_
    reachable
  intro db call before held after held' inTime represents track change
  exact change_stops represents track (fun _ _ closes => permitted_inTime inTime closes) change

/-! ## Replays -/

/-- The replay of a completed stop whose saved revision and time fit the history
up to its Turn. -/
private theorem replay_completed
    (represents : Represents codec db held) (known : held session.id = some session)
    (place : session.turns[index]? = some turn) (isStop : input.operation = .stop)
    (recorded : db.idempotencyRecords.lookup input.recordKey = some record)
    (same : record.matches input = true) (ended : record.status = "terminal")
    (ofSession : record.sessionId = some session.id.text)
    (ofTurn : record.turnId = some turn.id.text)
    (told : parseStopOutcome record.durableOutcome = .ok outcome) (confirmed : Confirmed outcome)
    (summed : revision.value = revisionSum (session.turns.take (index + 1)))
    (saves : Saves codec record revision turn.updatedAt) :
    replayCompletedStopIfPresent codec db session.id input =
      .ok (some ⟨cutAfter session index revision turn.updatedAt, turn.id, outcome⟩) := by
  obtain ⟨revisionText, updatedText, revisionSaved, updatedSaved, loaded⟩ :=
    replay_cut represents known place summed saves
  have matching : matchingIdempotency db input = .ok (some record) :=
    matchingIdempotency_ok.mpr ⟨recorded, by simpa using same⟩
  have turnFound : stopRecordTurnId record session.id = .ok turn.id := by
    simp only [stopRecordTurnId, except_bind_ok, orFail_ok, ensureRecordHandles, ensure_ok]
    exact ⟨turn.id, by simp [ofTurn], (), ⟨ofSession, ofTurn⟩, rfl⟩
  have cut : completedStopSession codec db record session.id turn.id outcome =
      .ok (cutAfter session index revision turn.updatedAt) := by
    cases outcome with
    | notConfirmed => exact confirmed.elim
    | stopped | alreadyTerminal =>
      simp only [completedStopSession, except_bind_ok, orFail_ok]
      exact ⟨revisionText, revisionSaved, updatedText, updatedSaved, loaded⟩
  have commit : completedStopCommit codec db record session.id =
      .ok ⟨cutAfter session index revision turn.updatedAt, turn.id, outcome⟩ := by
    simp only [completedStopCommit, except_bind_ok, ensure_ok]
    exact ⟨(), ended, turn.id, turnFound, outcome, told, _, cut, rfl⟩
  simp only [replayCompletedStopIfPresent, except_bind_ok, requireOperation, ensure_ok]
  refine ⟨(), isStop, some record, matching, ?_⟩
  simp [ended, commit, Except.map]

/-- In a run that takes open stops up only while their Turn is the last one, a
stop that has been completed with its Turn terminal is replayed as long as the
Session stays: with its outcome, its Turn and one Session in which the Turn is
terminal. -/
theorem stop_replay_stable (codec : TimeCodec) (db : Database)
    (reachable : ReachableBy codec (StopInTime codec) db) (sessionId : SessionId)
    (input : IdempotencyInput) (isStop : input.operation = .stop) (record : IdempotencyRow)
    (recorded : db.idempotencyRecords.lookup input.recordKey = some record)
    (same : record.matches input = true) (ofSession : record.sessionId = some sessionId.text)
    (ended : record.status = "terminal") (outcome : StopCommitOutcome)
    (told : parseStopOutcome record.durableOutcome = .ok outcome) (confirmed : Confirmed outcome) :
    ∃ commit : StopCommit, commit.outcome = outcome ∧ record.turnId = some commit.turnId.text ∧
      (∃ turn, commit.session.turn commit.turnId = some turn ∧ turn.state.isTerminal = true) ∧
      ∀ after, Later codec (Retains codec sessionId) db after →
        replayCompletedStopIfPresent codec after sessionId input = .ok (some commit) := by
  obtain ⟨held, represents, track⟩ := reachable_stops reachable
  obtain ⟨member, key⟩ := Table.lookup_eq_some.mp recorded
  have operation : record.operation = "stop" := by
    have sameOperation := congrArg (fun key => key.2.1) key
    simpa [IdempotencyRow.key, IdempotencyInput.recordKey, isStop, idempotentOperationToken]
      using sameOperation
  obtain ⟨session, index, turn, known, stops⟩ := track record member operation
  obtain rfl : session.id = sessionId := by
    have texts := stops.ofSession
    rw [ofSession, Option.some.injEq, PublicId.text_inj] at texts
    exact texts.symm
  obtain ⟨_, written, saved⟩ := stops.ended ended
  cases (parseStopOutcome_token written).symm.trans told
  obtain ⟨settles, revision, summed, saves⟩ := saved confirmed
  have terminal := settles_terminal confirmed settles
  have formed := cut_wellFormed (represents.stored _ _ known).2.formed stops.place summed
  have there : turn ∈ (cutAfter session index revision turn.updatedAt).turns :=
    List.mem_of_getElem? (i := index) (by simp [cutAfter, stops.place])
  refine ⟨⟨cutAfter session index revision turn.updatedAt, turn.id, outcome⟩, rfl, stops.ofTurn,
    ⟨turn, turn_of_mem formed there, terminal⟩, ?_⟩
  intro after later
  -- nothing of what the replay reads has changed since
  have anyReachable := reachable_any reachable
  have load : loadSession codec db session.id = .ok (some session) := by
    rw [represents.load, known]
  have run : Later codec (fun db call => True ∧ Retains codec session.id db call) db after := by
    simpa using later
  obtain ⟨final, loadFinal, stays⟩ := later_stay anyReachable load run
  obtain ⟨laterRecord, recordedLater, follows⟩ := stays.records _ _ recorded ofSession
  obtain rfl : laterRecord = record := follows.closed operation ended
  obtain ⟨heldLater, representsLater⟩ :=
    reachable_represents (later_reachable anyReachable later fun _ _ _ => trivial)
  have sameId : final.id = session.id := stays.history.same.id
  rw [representsLater.load, Except.ok.injEq, ← sameId] at loadFinal
  have replayed := replay_completed representsLater loadFinal
    (stays.history.turn_at stops.place terminal) isStop recordedLater same ended
    (sameId ▸ ofSession) stops.ofTurn told confirmed
    (by rw [stays.history.settled index turn stops.place terminal, summed]) saves
  rw [cut_keeps stays.history stops.place terminal, sameId] at replayed
  exact replayed

/-! The sample Session's Turn completes on its own while a stop of it is open. If
the stop is taken up again before the next Turn starts, its replay is stable; if
it is taken up after, the replay fails. -/

def sampleStop (second : Int) : StoreCall :=
  .beginStop sampleSessionId sampleTurnId (sampleInput .stop 0) (seconds second)

/-- The stop is open and its Turn has completed. -/
def overtakenStore : Database :=
  (serve sampleCodec (serve sampleCodec startedStore (sampleStop 0)).2 sampleComplete).2

/-- The record of the stop, completed by a second call. -/
def stoppedRecord (revision updatedAt completedAt expiresAt : String) : IdempotencyRow where
  principalRef := "principal-test"
  operation := "stop"
  idempotencyKey := "request-test"
  operationId := "operation-test"
  requestDigest := sampleDigest
  digestSchemaVersion := 1
  hmacKeyVersion := 1
  status := "terminal"
  durableOutcome := "v1.stop.already_completed"
  sessionId := some sampleSessionId.text
  turnId := some sampleTurnId.text
  resultSessionStateRevision := some revision
  resultSessionUpdatedAt := some updatedAt
  createdAt := "1970-01-01T00:00:00Z"
  completedAt := some completedAt
  expiresAt := expiresAt

def closedStore : Database := (serve sampleCodec overtakenStore (sampleStop 1)).2

private theorem closedStore_reachable :
    ReachableBy sampleCodec (StopInTime sampleCodec) closedStore := by
  have unasked : ∀ {db call}, stopRequest call = none → StopInTime sampleCodec db call := by
    intro db call none input some
    rw [none] at some
    cases some
  refine ⟨emptyStore, emptyStore_fresh, .tail (.tail (.tail (.single
    ⟨sampleBegin, unasked rfl, rfl⟩) ⟨sampleStop 0, ?_, rfl⟩) ⟨sampleComplete, unasked rfl, rfl⟩)
    ⟨sampleStop 1, ?_, rfl⟩⟩
  · intro input asked record recorded
    cases asked
    have unrecorded : startedStore.idempotencyRecords.lookup (sampleInput .stop 0).recordKey =
        none := by decide
    cases unrecorded.symm.trans recorded
  · intro input asked record recorded same pending sessionId session ofSession load
    cases asked
    have names : (overtakenStore.idempotencyRecords.lookup (sampleInput .stop 0).recordKey).map
        (fun record => (record.sessionId, record.turnId)) =
        some (some sampleSessionId.text, some sampleTurnId.text) := by decide
    rw [show overtakenStore.idempotencyRecords.lookup (sampleInput .stop 0).recordKey = some record
      from recorded, Option.map_some, Option.some.injEq, Prod.mk.injEq] at names
    rw [names.1, Option.some.injEq, PublicId.text_inj] at ofSession
    have completed : loadSession sampleCodec overtakenStore sampleSessionId =
        .ok (some completedSession) := by decide
    rw [← ofSession] at load
    cases completed.symm.trans load
    rw [names.2]
    decide

theorem stop_replay_stable_closed :
    closedStore.idempotencyRecords.lookup (sampleInput .stop 0).recordKey =
      some (stoppedRecord "0000000000000002" "1970-01-01T00:00:01Z" "1970-01-01T00:00:01Z"
        "1970-01-02T00:00:01Z") ∧
    loadSession sampleCodec (serve sampleCodec closedStore sampleFollowUp).2 sampleSessionId =
      .ok (some continuedSession) ∧
    ∃ commit : StopCommit, commit.outcome = .alreadyTerminal .completed ∧
      replayCompletedStopIfPresent sampleCodec (serve sampleCodec closedStore sampleFollowUp).2
        sampleSessionId (sampleInput .stop 0) = .ok (some commit) := by
  have recorded : closedStore.idempotencyRecords.lookup (sampleInput .stop 0).recordKey =
      some (stoppedRecord "0000000000000002" "1970-01-01T00:00:01Z" "1970-01-01T00:00:01Z"
        "1970-01-02T00:00:01Z") := by decide
  have load : loadSession sampleCodec (serve sampleCodec closedStore sampleFollowUp).2
      sampleSessionId = .ok (some continuedSession) := by decide
  refine ⟨recorded, load, ?_⟩
  obtain ⟨commit, outcome, _, _, stable⟩ := stop_replay_stable sampleCodec closedStore
    closedStore_reachable sampleSessionId (sampleInput .stop 0) rfl _ recorded (by decide) rfl rfl
    (.alreadyTerminal .completed) rfl trivial
  exact ⟨commit, outcome, stable _ (.single ⟨sampleFollowUp, ⟨_, load⟩, rfl⟩)⟩

/-- The store after the stop has been taken up with the next Turn running. -/
def lateStore : Database :=
  (serve sampleCodec (serve sampleCodec overtakenStore sampleFollowUp).2 (sampleStop 3)).2

theorem stop_replay_unstable :
    ReachableStore sampleCodec lateStore ∧
    lateStore.idempotencyRecords.lookup (sampleInput .stop 0).recordKey =
      some (stoppedRecord "0000000000000003" "1970-01-01T00:00:02Z" "1970-01-01T00:00:03Z"
        "1970-01-02T00:00:03Z") ∧
    loadSession sampleCodec lateStore sampleSessionId = .ok (some continuedSession) ∧
    replayCompletedStopIfPresent sampleCodec lateStore sampleSessionId (sampleInput .stop 0) =
      .error (.withSource .invalidStoredState (.invalidSnapshot .incoherentSessionRevision)) := by
  refine ⟨?_, by decide, by decide, by decide⟩
  exact ⟨emptyStore, emptyStore_fresh, .tail (.tail (.tail (.tail (.single
    ⟨sampleBegin, trivial, rfl⟩) ⟨sampleStop 0, trivial, rfl⟩) ⟨sampleComplete, trivial, rfl⟩)
    ⟨sampleFollowUp, trivial, rfl⟩) ⟨sampleStop 3, trivial, rfl⟩⟩

end Satelle.StopReplays
