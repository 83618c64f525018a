import Satelle.AdmissionRecords
import Satelle.AdmissionRequests
import Satelle.StoreHistory
import Satelle.StoreRefinement

/-! A request that has been admitted is answered from its record. The answer
tells the Session while the Turn runs; once the Turn is terminal it is the
Session as the Turn left it, at all later times. -/
namespace Satelle.AdmissionReplays
open Satelle.Core Lib Host SessionInvariants SessionLifecycle StoreRows StoreStatements StoreChanges
open StoreEffects StoreRepresentation ProgressChanges StoreTransactions StoreHistory StoreRefinement
open AdmissionRecords AdmissionRequests
open StorageError (fail)

/-- A call that names a Session names the one the record is about. -/
def Fits (expected : Option SessionId) (sessionId : SessionId) : Prop :=
  ∀ other ∈ expected, other = sessionId

/-- Presenting the request changes nothing and gets this replay, unless the call
is turned away for its other arguments. -/
structure Answers (codec : TimeCodec) (db : Database) (input : IdempotencyInput)
    (replay : AdmissionReplay) : Prop where
  read : ∀ expected, Fits expected replay.sessionId →
    replayAdmissionIfPresent codec db input.operation input expected = .ok (some replay)
  served : ∀ call, presented call = some input → WellArgued call →
    Fits (expectedSession call) replay.sessionId →
    serve codec db call = (.ok (replayReply call replay), db)
  misdirected : ∀ call, presented call = some input → WellArgued call →
    ¬Fits (expectedSession call) replay.sessionId →
    serve codec db call = (fail .idempotencyConflict, db)
  misused : ∀ call, presented call = some input → ¬WellArgued call →
    serve codec db call = (fail .invalidInput, db)

/-- Presenting the request changes nothing and is refused, for its key has been
used for another request. -/
structure Refuses (codec : TimeCodec) (db : Database) (input : IdempotencyInput) : Prop where
  read : ∀ expected, replayAdmissionIfPresent codec db input.operation input expected =
    fail .idempotencyConflict
  served : ∀ call, presented call = some input → WellArgued call →
    serve codec db call = (fail .idempotencyConflict, db)
  misused : ∀ call, presented call = some input → ¬WellArgued call →
    serve codec db call = (fail .invalidInput, db)

theorem refuses_of_conflict (found : matchingIdempotency db input = fail .idempotencyConflict) :
    Refuses codec db input where
  read := by
    intro expected
    rw [replayAdmissionIfPresent, requireOperation, ensure, if_pos rfl, found]
    rfl
  served := by
    intro call presents good
    rw [serve_looks_up presents good, found]
    rfl
  misused := fun call presents bad => serve_misused presents bad

/-! ## Replays -/

/-- What the record of a held Turn is replayed as. -/
structure Replayed (session : Session) (index : Nat) (turn : Turn) (replay : AdmissionReplay) :
    Prop where
  ofSession : replay.sessionId = session.id
  ofTurn : replay.turnId = turn.id
  running : turn.state.isTerminal = false → replay.outcome = .inProgress session
  ended : turn.state.isTerminal = true → ∃ revision : SessionStateRevision,
    revision.value = revisionSum (session.turns.take (index + 1)) ∧
      replay.outcome = .complete (cutAfter session index revision turn.updatedAt)

private theorem validates (formed : WellFormed session)
    (member : turn ∈ session.turns)
    (outcome : record.durableOutcome = turnIdempotencyToken turn.state) :
    validateReplayedTurnOutcome record session turn.id = .ok () := by
  rw [validateReplayedTurnOutcome, turn_of_mem formed member]
  exact if_pos outcome

private theorem admits_replayed (represents : Represents codec db held)
    (known : held session.id = some session) (admits : Admits codec record session index turn) :
    ∃ replay, Replayed session index turn replay ∧
      replayedOutcome codec db record session.id turn.id = .ok replay.outcome := by
  have formed := (represents.stored _ _ known).2.formed
  cases terminal : turn.state.isTerminal with
  | false =>
    refine ⟨⟨.inProgress session, session.id, turn.id⟩, ⟨rfl, rfl, fun _ => rfl, ?_⟩, ?_⟩
    · intro ended
      rw [terminal] at ended
      cases ended
    · rw [replayedOutcome, admits.running terminal]
      simp only [except_bind_ok]
      exact ⟨session, represents.required.mpr known, (),
        validates formed (List.mem_of_getElem? admits.place) admits.outcome, rfl⟩
  | true =>
    obtain ⟨status, revision, summed, saves⟩ := admits.ended terminal
    obtain ⟨revisionText, updatedText, revisionSaved, updatedSaved, loaded⟩ :=
      replay_cut represents known admits.place summed saves
    refine ⟨⟨.complete (cutAfter session index revision turn.updatedAt), session.id, turn.id⟩,
      ⟨rfl, rfl, ?_, fun _ => ⟨revision, summed, rfl⟩⟩, ?_⟩
    · intro running
      rw [terminal] at running
      cases running
    · have there : turn ∈ (cutAfter session index revision turn.updatedAt).turns :=
        List.mem_of_getElem? (i := index) (by simp [cutAfter, admits.place])
      rw [replayedOutcome, status]
      simp only [except_bind_ok, orFail_ok]
      exact ⟨revisionText, revisionSaved, updatedText, updatedSaved, _, loaded, (),
        validates (cut_wellFormed formed admits.place summed) there admits.outcome, rfl⟩

/-- A request whose record is there is replayed as its Turn is held, and in no other way. -/
theorem recorded_answers (represents : Represents codec db held)
    (track : RecordsTrack codec db.idempotencyRecords held)
    (recorded : db.idempotencyRecords.lookup input.recordKey = some record)
    (admission : isAdmission record = true) (same : record.matches input = true) :
    ∃ session index turn replay, held session.id = some session ∧
      Admits codec record session index turn ∧ Replayed session index turn replay ∧
      Answers codec db input replay ∧
      ∀ expected other, replayAdmission codec db record expected = .ok other → other = replay := by
  have member := (Table.lookup_eq_some.mp recorded).1
  obtain ⟨session, index, turn, known, admits⟩ := track.named record member admission
  have found : matchingIdempotency db input = .ok (some record) :=
    matchingIdempotency_ok.mpr ⟨recorded, by simpa using same⟩
  obtain ⟨replay, replayed, outcome⟩ := admits_replayed represents known admits
  have parsed : record.sessionId.bind PublicId.parse = some session.id ∧
      record.turnId.bind PublicId.parse = some turn.id := by
    simp [admits.ofSession, admits.ofTurn]
  have same : replay = ⟨replay.outcome, session.id, turn.id⟩ := by
    rw [← replayed.ofSession, ← replayed.ofTurn]
  have given : ∀ expected, Fits expected replay.sessionId →
      replayAdmission codec db record expected = .ok replay := by
    intro expected fits
    rw [replayed.ofSession] at fits
    simp only [replayAdmission, except_bind_ok, orFail_ok, ensure_ok]
    exact ⟨session.id, parsed.1, turn.id, parsed.2, (), fits, replay.outcome, outcome,
      congrArg Except.ok same.symm⟩
  have refused : ∀ expected, ¬Fits expected replay.sessionId →
      replayAdmission codec db record expected = fail .idempotencyConflict := by
    intro expected misfit
    rw [replayed.ofSession, Fits] at misfit
    rw [replayAdmission, parsed.1, parsed.2]
    change (ensure _ _ >>= _) = _
    rw [ensure, if_neg misfit]
    rfl
  refine ⟨session, index, turn, replay, known, admits, replayed,
    ⟨?_, ?_, ?_, fun call presents bad => serve_misused presents bad⟩, ?_⟩
  · intro expected fits
    rw [replayAdmissionIfPresent, requireOperation, ensure, if_pos rfl, found]
    change (replayAdmission codec db record expected).map some = _
    rw [given expected fits]
    rfl
  · intro call presents good fits
    rw [serve_looks_up presents good, found, answered, given _ fits]
    rfl
  · intro call presents good misfit
    rw [serve_looks_up presents good, found, answered, refused _ misfit]
    rfl
  · intro expected other made
    by_cases fits : Fits expected replay.sessionId
    · cases made.symm.trans (given expected fits)
      rfl
    · cases made.symm.trans (refused expected fits)

/-- As long as the Session stays, its Turn's request is answered, and with the
same once the Turn is terminal. -/
private theorem later_answers (reachable : ReachableStore codec db)
    (load : loadSession codec db session.id = .ok (some session))
    (recorded : db.idempotencyRecords.lookup input.recordKey = some record)
    (admission : isAdmission record = true) (same : record.matches input = true)
    (admits : Admits codec record session index turn)
    (replayed : Replayed session index turn replay)
    (later : Later codec (Retains codec session.id) db after) :
    ∃ again, Answers codec after input again ∧ again.sessionId = replay.sessionId ∧
      again.turnId = replay.turnId ∧ (turn.state.isTerminal = true → again = replay) := by
  have run : Later codec (fun db call => True ∧ Retains codec session.id db call) db after := by
    simpa using later
  obtain ⟨final, loadFinal, stays⟩ := later_stay reachable load run
  obtain ⟨laterRecord, recordedLater, follows⟩ := stays.records _ _ recorded admits.ofSession
  obtain ⟨held, represents, track⟩ :=
    reachable_records (later_reachable reachable later fun _ _ _ => trivial)
  have stillAdmission : isAdmission laterRecord = true := by
    simpa [isAdmission, follows.same.operation] using admission
  have stillSame : laterRecord.matches input = true := by
    simpa [IdempotencyRow.matches, follows.same.digest, follows.same.schema,
      follows.same.keyVersion] using same
  obtain ⟨owner, position, current, again, known, admitsLater, replayedLater, answers, _⟩ :=
    recorded_answers represents track recordedLater stillAdmission stillSame
  -- the record still names the same Turn of the same Session
  have sameSession : owner.id = session.id := by
    have texts := admitsLater.ofSession
    rw [follows.same.session, admits.ofSession, Option.some.injEq, PublicId.text_inj] at texts
    exact texts.symm
  have sameTurn : current.id = turn.id := by
    have texts := admitsLater.ofTurn
    rw [follows.same.turn, admits.ofTurn, Option.some.injEq, PublicId.text_inj] at texts
    exact texts.symm
  have ofSession : again.sessionId = replay.sessionId := by
    rw [replayedLater.ofSession, sameSession, replayed.ofSession]
  have ofTurn : again.turnId = replay.turnId := by
    rw [replayedLater.ofTurn, sameTurn, replayed.ofTurn]
  refine ⟨again, answers, ofSession, ofTurn, fun ended => ?_⟩
  have isFinal : owner = final := by
    rw [represents.load, ← sameSession, known] at loadFinal
    cases loadFinal
    rfl
  subst isFinal
  have formed := (represents.stored _ _ known).2.formed
  have place := stays.history.turn_at admits.place ended
  obtain rfl := position_unique formed admitsLater.place place sameTurn
  obtain rfl : current = turn := Option.some.inj (admitsLater.place.symm.trans place)
  -- and its saved revision is that of the same beginning of the history
  obtain ⟨revision, summed, outcome⟩ := replayed.ended ended
  obtain ⟨revisionLater, summedLater, outcomeLater⟩ := replayedLater.ended ended
  have sameRevision : revisionLater = revision := by
    apply Revision.value_inj.mp
    rw [summed, summedLater, stays.history.settled _ _ admits.place ended]
  have sameOutcome : again.outcome = replay.outcome := by
    rw [outcome, outcomeLater, sameRevision, cut_keeps stays.history admits.place ended]
  cases again
  cases replay
  simp only [AdmissionReplay.mk.injEq]
  exact ⟨sameOutcome, ofSession, ofTurn⟩

/-! ## The Session committed with a terminal Turn -/

theorem last_of_active (formed : WellFormed session)
    (member : turn ∈ session.turns) (active : turn.state.isTerminal = false) :
    lastTurnId session = some turn.id := by
  obtain ⟨index, rfl⟩ := List.mem_iff_get.mp member
  obtain ⟨shape, _⟩ := active_is_last formed index active
  have last : session.turns.getLast? = some (session.turns.get index) :=
    (congrArg List.getLast? shape).trans (by simp)
  rw [lastTurnId, last, Option.map_some]

/-- An operation on a Session with an active Turn adds none. -/
private theorem perform_last (formed : WellFormed session)
    (member : turn ∈ session.turns) (active : turn.state.isTerminal = false)
    (call : LifecycleCall) : lastTurnId (perform session call).2 = lastTurnId session := by
  rcases perform_cases session call with ⟨_, same⟩ | ⟨commit, _, commits⟩
  · rw [same]
  · rcases commits.targeted with ⟨index, targeted⟩ | ⟨_, _, _, _, rfl⟩
    · obtain ⟨moved, advances, _⟩ := commits.advances formed targeted
      exact (advances_lastTurnId advances).symm
    · have ended := commits.appends.idle turn member
      rw [active] at ended
      cases ended

/-- A call on a Session with an active Turn leaves that Turn the last one. -/
private theorem performs_last (represents : Represents codec db held)
    (performs : Performs codec db held call reply held') (known : held sessionId = some session)
    (member : turn ∈ session.turns) (active : turn.state.isTerminal = false)
    (remains : held' sessionId = some later) : lastTurnId later = some turn.id := by
  have formed := (represents.stored _ _ known).2.formed
  rw [← last_of_active formed member active]
  have unchanged : held sessionId = some later → lastTurnId later = lastTurnId session := by
    intro remains
    rw [known, Option.some.injEq] at remains
    rw [remains]
  -- a call that performs one operation on one Session
  have performed : ∀ {target : SessionId} {before after : Session} (operation : LifecycleCall),
      held target = some before → (perform before operation).2 = after →
      Function.update held target (some after) sessionId = some later →
      lastTurnId later = lastTurnId session := by
    rintro target before _ operation knownBefore rfl remains
    by_cases same : sessionId = target
    · subst same
      rw [Function.update_self, Option.some.injEq] at remains
      rw [known, Option.some.injEq] at knownBefore
      subst knownBefore
      rw [← remains, perform_last formed member active]
    · rw [Function.update_of_ne same] at remains
      exact unchanged remains
  cases performs with
  | sessionStarted _ free =>
    rw [Function.update_of_ne] at remains
    · exact unchanged remains
    · rintro rfl
      rw [free] at known
      cases known
  | followUpStarted _ knownBefore ran =>
    exact performed (.startFollowUp _ _ _ _) knownBefore (by rw [perform, ran]; rfl) remains
  | committed knownBefore ran =>
    exact performed (.transitionTurn _ _ _ _) knownBefore (by rw [perform, ran]; rfl) remains
  | stopSettled _ _ knownBefore ran =>
    exact performed (.stopTurn _ _ _ _) knownBefore (by rw [perform, ran]; rfl) remains
  | @restarted clock _ _ =>
    simp only [known, Option.map_some, Option.some.injEq] at remains
    rw [← remains, restarted]
    split
    · rfl
    · exact perform_last formed member active (.markActiveRecoveryPending _ _)
  | pruned fewer =>
    rcases fewer sessionId with same | gone
    · rw [same] at remains
      exact unchanged remains
    · rw [gone] at remains
      cases remains
  | sessionReplayed | followUpReplayed | referenced | stopBegan | stopReplayed | cancelled
  | reconciled | logged => exact unchanged remains

/-- A Turn that a call has made terminal is the last one of the Session it
left. -/
private theorem ended_last (reachable : ReachableStore codec db)
    (load : loadSession codec db sessionId = .ok (some session)) (member : turn ∈ session.turns)
    (active : turn.state.isTerminal = false)
    (loadAfter : loadSession codec (serve codec db call).2 sessionId = .ok (some later)) :
    lastTurnId later = some turn.id := by
  obtain ⟨held, represents⟩ := reachable_represents reachable
  have known := load
  rw [represents.load, Except.ok.injEq] at known
  cases outcome : (serve codec db call).1 with
  | error e =>
    rw [serve_error outcome, load] at loadAfter
    cases loadAfter
    exact last_of_active (represents.stored _ _ known).2.formed member active
  | ok reply =>
    obtain ⟨held', performs, changes⟩ := serve_changes represents (Prod.ext outcome rfl)
    rw [(changes_represents changes represents).load, Except.ok.injEq] at loadAfter
    exact performs_last represents performs known member active loadAfter

/-- A Session cut after its last Turn, which is terminal, is replayed whole. -/
private theorem replayed_whole (formed : WellFormed later)
    (atEnd : lastTurnId later = some last.id) (place : later.turns[index]? = some last)
    (terminal : last.state.isTerminal = true) (replayed : Replayed later index last replay) :
    replay = ⟨.complete later, later.id, last.id⟩ := by
  obtain ⟨final, isLast, sameId⟩ := Option.map_eq_some_iff.mp atEnd
  obtain ⟨earlier, shape⟩ := List.getLast?_eq_some_iff.mp isLast
  have atLength : later.turns[earlier.length]? = some final := by simp [shape]
  obtain rfl := position_unique formed place atLength sameId.symm
  obtain rfl : final = last := Option.some.inj (atLength.symm.trans place)
  obtain ⟨revision, summed, outcome⟩ := replayed.ended terminal
  have ofSession := replayed.ofSession
  have ofTurn := replayed.ofTurn
  have whole : later.turns.take (earlier.length + 1) = later.turns := by
    rw [shape, List.take_of_length_le (by simp)]
  have latest : final.updatedAt = later.updatedAt := by simpa [shape] using formed.latest
  have same : revision = later.revision := by
    apply Revision.value_inj.mp
    rw [summed, whole, formed.summed]
  simp only [cutAfter, whole, latest, same] at outcome
  cases replay
  simp only [AdmissionReplay.mk.injEq]
  exact ⟨outcome, ofSession, ofTurn⟩

/-! ## The main result -/

/-- The records of run and steer requests that name a Turn. -/
def admissionRecords (db : Database) (turnId : TurnId) : List IdempotencyRow :=
  db.idempotencyRecords.rows.filter fun record =>
    isAdmission record && record.turnId = some turnId.text

/-- Every stored Turn has one admission record, which tells its state. A recorded
request that is presented again changes nothing and is answered: with the
current Session while its Turn is active, and once the Turn is terminal with the
history up to it, as long as the Session stays. That is the Session left by the
call that made the Turn terminal. Another request under the same key is
refused. -/
theorem admission_replay_stable (codec : TimeCodec) (db : Database)
    (reachable : ReachableStore codec db) :
    (∀ sessionId session turn, loadSession codec db sessionId = .ok (some session) →
      turn ∈ session.turns → ∃ record, admissionRecords db turn.id = [record] ∧
        (record.status = "terminal" ↔ turn.state.isTerminal = true) ∧
        record.durableOutcome = turnIdempotencyToken turn.state) ∧
    (∀ input record, db.idempotencyRecords.lookup input.recordKey = some record →
      isAdmission record = true → record.matches input = true →
      ∃ session index turn replay, loadSession codec db session.id = .ok (some session) ∧
        session.turns[index]? = some turn ∧ record.turnId = some turn.id.text ∧
        Replayed session index turn replay ∧ Answers codec db input replay ∧
        ∀ after, Later codec (Retains codec session.id) db after →
          ∃ again, Answers codec after input again ∧ again.sessionId = session.id ∧
            again.turnId = turn.id ∧ (turn.state.isTerminal = true → again = replay)) ∧
    (∀ call input record session turn later ended,
      (serve codec db call).2.idempotencyRecords.lookup input.recordKey = some record →
      isAdmission record = true → record.matches input = true →
      record.turnId = some turn.id.text →
      loadSession codec db session.id = .ok (some session) → turn ∈ session.turns →
      turn.state.isTerminal = false →
      loadSession codec (serve codec db call).2 session.id = .ok (some later) →
      ended ∈ later.turns → ended.id = turn.id → ended.state.isTerminal = true →
      ∀ after, Later codec (Retains codec session.id) (serve codec db call).2 after →
        Answers codec after input ⟨.complete later, session.id, turn.id⟩) ∧
    (∀ input record, db.idempotencyRecords.lookup input.recordKey = some record →
      isAdmission record = true → record.matches input = false → Refuses codec db input) := by
  obtain ⟨held, represents, track⟩ := reachable_records reachable
  refine ⟨?_, ?_, ?_, ?_⟩
  · intro sessionId session turn load member
    rw [represents.load, Except.ok.injEq] at load
    obtain ⟨rfl, _⟩ := represents.stored _ _ load
    obtain ⟨record, there, admission, ofSession, ofTurn⟩ :=
      track.recorded session turn load member
    obtain ⟨owner, index, admitted, known, admits⟩ := track.named record there admission
    -- the record names the Turn, and so does no other
    have isTurn : owner = session ∧ admitted = turn := by
      refine turn_unique represents known load (List.mem_of_getElem? admits.place) member ?_
      rw [admits.ofTurn, Option.some.injEq, PublicId.text_inj] at ofTurn
      exact ofTurn
    obtain ⟨rfl, rfl⟩ := isTurn
    refine ⟨record, ?_, ?_, admits.outcome⟩
    · refine Table.filter_eq_singleton there (by simp [admission, ofTurn]) ?_
      intro other otherThere hit
      rw [Bool.and_eq_true, decide_eq_true_eq] at hit
      exact track.unique other otherThere record there hit.1 admission (hit.2.trans ofTurn.symm)
    · cases terminal : admitted.state.isTerminal with
      | true => simp [(admits.ended terminal).1]
      | false => simp [admits.running terminal]
  · intro input record recorded admission same
    obtain ⟨session, index, turn, replay, known, admits, replayed, answers, _⟩ :=
      recorded_answers represents track recorded admission same
    have load : loadSession codec db session.id = .ok (some session) := by
      rw [represents.load, known]
    refine ⟨session, index, turn, replay, load, admits.place, admits.ofTurn, replayed, answers, ?_⟩
    intro after later
    obtain ⟨again, answersAgain, ofSession, ofTurn, stable⟩ :=
      later_answers reachable load recorded admission same admits replayed later
    exact ⟨again, answersAgain, ofSession.trans replayed.ofSession, ofTurn.trans replayed.ofTurn,
      stable⟩
  · intro call input record session turn ending ended recorded admission same names load member
      active loadAfter memberAfter sameTurn terminal after later
    have step : Later codec (fun _ _ => True) db (serve codec db call).2 :=
      .single ⟨call, trivial, rfl⟩
    have reachableAfter := later_reachable reachable step fun _ _ _ => trivial
    have atEnd := ended_last reachable load member active loadAfter
    obtain ⟨held', represents', track'⟩ := reachable_records reachableAfter
    obtain ⟨owner, index, current, replay, known, admits, replayed, _⟩ :=
      recorded_answers represents' track' recorded admission same
    rw [represents'.load, Except.ok.injEq] at loadAfter
    obtain ⟨sameId, stored⟩ := represents'.stored _ _ loadAfter
    rw [← sameId] at loadAfter
    have isEnded : owner = ending ∧ current = ended := by
      refine turn_unique represents' known loadAfter (List.mem_of_getElem? admits.place)
        memberAfter ?_
      rw [admits.ofTurn, Option.some.injEq, PublicId.text_inj] at names
      exact names.trans sameTurn.symm
    obtain ⟨rfl, rfl⟩ := isEnded
    have whole := replayed_whole stored.formed (by rw [atEnd, sameTurn]) admits.place terminal
      replayed
    have load' : loadSession codec (serve codec db call).2 owner.id = .ok (some owner) := by
      rw [represents'.load, known]
    rw [← sameId] at later
    obtain ⟨again, answers, _, _, stable⟩ :=
      later_answers reachableAfter load' recorded admission same admits replayed later
    rw [← sameId, ← sameTurn, ← whole, ← stable terminal]
    exact answers
  · intro input record recorded admission other
    refine refuses_of_conflict ?_
    rw [matchingIdempotency, recorded]
    simp [other]

/-! The sample Session's Turn completes, a follow-up Turn starts, and the first
request is presented again. -/

def completedStore : Database := (serve sampleCodec startedStore sampleComplete).2

def continuedStore : Database := (serve sampleCodec completedStore sampleFollowUp).2

/-- The record of the first request once its Turn has completed. -/
def completedRecord : IdempotencyRow where
  principalRef := "principal-test"
  operation := "run"
  idempotencyKey := "request-test"
  operationId := "operation-test"
  requestDigest := sampleDigest
  digestSchemaVersion := 1
  hmacKeyVersion := 1
  status := "terminal"
  durableOutcome := "v1.turn.completed"
  sessionId := some sampleSessionId.text
  turnId := some sampleTurnId.text
  resultSessionStateRevision := some "0000000000000002"
  resultSessionUpdatedAt := some "1970-01-01T00:00:01Z"
  createdAt := "1970-01-01T00:00:00Z"
  completedAt := some "1970-01-01T00:00:01Z"
  expiresAt := "1970-01-02T00:00:01Z"

theorem admission_replay_stable_continued :
    completedStore.idempotencyRecords.lookup (sampleInput .run 0).recordKey =
      some completedRecord ∧
    completedSession.turns.length = 1 ∧ continuedSession.turns.length = 2 ∧
    loadSession sampleCodec continuedStore sampleSessionId = .ok (some continuedSession) ∧
    Answers sampleCodec continuedStore (sampleInput .run 0)
      ⟨.complete completedSession, sampleSessionId, sampleTurnId⟩ := by
  have recorded : completedStore.idempotencyRecords.lookup (sampleInput .run 0).recordKey =
      some completedRecord := by decide
  have loadAfter : loadSession sampleCodec completedStore sampleSessionId =
      .ok (some completedSession) := by decide
  have loadFinal : loadSession sampleCodec continuedStore sampleSessionId =
      .ok (some continuedSession) := by decide
  refine ⟨recorded, by decide, by decide, loadFinal, ?_⟩
  exact (admission_replay_stable sampleCodec startedStore startedStore_reachable).2.2.1
    sampleComplete (sampleInput .run 0) completedRecord sampleSession
    (Turn.starting sampleTurnId samplePolicy 0) completedSession _ recorded (by decide) (by decide)
    rfl (by decide) (by decide) (by decide) loadAfter (List.mem_of_getElem? (i := 0) rfl) rfl rfl
    continuedStore (.single ⟨sampleFollowUp, ⟨continuedSession, loadFinal⟩, rfl⟩)

end Satelle.AdmissionReplays
