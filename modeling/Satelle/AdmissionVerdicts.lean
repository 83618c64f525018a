import Satelle.AdmissionReplays
import Satelle.CancellationExclusion

/-! What the store says of a request for an admission, and how long it stays
true: a replay names the record of the request, and the record and the
tombstone stay for as long as the tombstone counts and retention spares them. -/
namespace Satelle.AdmissionVerdicts
open Satelle.Core Lib Host StoreRows StoreStatements StoreChanges StoreEffects
open AdmissionChanges StoreTransactions StoreHistory AdmissionRecords
open AdmissionReplays RequestSlots CancellationExclusion

/-- The key of the record of a request. -/
def requestKey (request : OperationRequest) : RequestKey :=
  (request.principalRef, idempotentOperationToken request.operation, request.idempotencyKey)

/-- The record was made for this very request. -/
structure OfRequest (request : OperationRequest) (record : IdempotencyRow) : Prop where
  digest : record.requestDigest = request.requestDigest
  schema : record.digestSchemaVersion = request.digestSchemaVersion
  keyVersion : record.hmacKeyVersion = request.hmacKeyVersion

/-- The store holds the admission of this Turn for the request. -/
def Recorded (db : Database) (request : OperationRequest) (sessionId : SessionId)
    (turnId : TurnId) : Prop :=
  ∃ record, db.idempotencyRecords.lookup (requestKey request) = some record ∧
    OfRequest request record ∧ record.sessionId = some sessionId.text ∧
    record.turnId = some turnId.text

/-- The store holds a tombstone of the request. -/
def Buried (db : Database) (request : OperationRequest) : Prop :=
  db.admissionCancellations.lookup (requestKey request) ≠ none

theorem presents_iff {request : OperationRequest} :
    request.presents input = true ↔ input.principalRef.text = request.principalRef ∧
      input.operation = request.operation ∧ input.key.text = request.idempotencyKey ∧
      input.requestDigest = request.requestDigest ∧
      input.digestSchemaVersion = request.digestSchemaVersion ∧
      input.hmacKeyVersion = request.hmacKeyVersion := by
  simp [OperationRequest.presents, and_assoc]

theorem key_of_presents {request : OperationRequest}
    (presents : request.presents input = true) : input.recordKey = requestKey request := by
  obtain ⟨principal, operation, key, _⟩ := presents_iff.mp presents
  simp [IdempotencyInput.recordKey, requestKey, principal, operation, key]

theorem ofRequest_of_matches {input : IdempotencyInput}
    (presents : request.presents input = true) (same : record.matches input = true) :
    OfRequest request record := by
  obtain ⟨_, _, _, digest, schema, version⟩ := presents_iff.mp presents
  simp only [IdempotencyRow.matches, Bool.and_eq_true, decide_eq_true_eq] at same
  exact ⟨same.1.1.trans digest, same.1.2.trans schema, same.2.trans version⟩

theorem isAdmission_of_lookup {db : Database} (isAdmission : request.isAdmission = true)
    (recorded : db.idempotencyRecords.lookup (requestKey request) = some record) :
    AdmissionRecords.isAdmission record = true := by
  obtain ⟨_, own⟩ := Table.lookup_eq_some.mp recorded
  have operation : record.operation = idempotentOperationToken request.operation :=
    congrArg (fun key : RequestKey => key.2.1) own
  simp only [OperationRequest.isAdmission, Bool.or_eq_true, decide_eq_true_eq] at isAdmission
  rcases isAdmission with run | steer
  · simp [AdmissionRecords.isAdmission, operation, run, idempotentOperationToken]
  · simp [AdmissionRecords.isAdmission, operation, steer, idempotentOperationToken]

/-! ## Replays name the record -/

/-- The Turn is the last one of the Session, and the record of the request is
about them. -/
structure Named (db : Database) (request : OperationRequest) (session : Session)
    (turnId : TurnId) : Prop where
  last : lastTurnId session = some turnId
  recorded : Recorded db request session.id turnId

private theorem last_cut (place : session.turns[index]? = some turn) :
    lastTurnId (cutAfter session index revision updatedAt) = some turn.id := by
  obtain ⟨bound, isTurn⟩ := List.getElem?_eq_some_iff.mp place
  simp [lastTurnId, cutAfter, List.getLast?_take, isTurn, bound]

theorem replay_named
    (reachable : ReachableStore codec db) (isAdmission : request.isAdmission = true)
    (presents : request.presents input = true)
    (matching : matchingIdempotency db input = .ok (some record))
    (replayed : replayAdmission codec db record expected = .ok replay) :
    Named db request replay.outcome.session replay.turnId ∧
      replay.publicSession = .ok replay.outcome.session.toPublic := by
  obtain ⟨held, represents, track⟩ := reachable_records reachable
  obtain ⟨recorded, matched⟩ := matchingIdempotency_ok.mp matching
  have same : record.matches input = true := matched record rfl
  have admission : AdmissionRecords.isAdmission record = true :=
    isAdmission_of_lookup isAdmission (by rw [← key_of_presents presents, recorded])
  obtain ⟨session, index, turn, again, known, admits, isReplayed, _, only⟩ :=
    recorded_answers represents track recorded admission same
  obtain rfl := only expected replay replayed
  have names : ∀ whole : Session, whole.id = session.id → lastTurnId whole = some turn.id →
      Named db request whole replay.turnId := by
    intro whole sameId last
    rw [isReplayed.ofTurn]
    refine ⟨last, record, by rw [← key_of_presents presents, recorded],
      ofRequest_of_matches presents same, by rw [sameId, admits.ofSession], admits.ofTurn⟩
  have formed := (represents.stored _ _ known).2.formed
  cases terminal : turn.state.isTerminal with
  | false =>
    have outcome := isReplayed.running terminal
    rw [AdmissionReplay.publicSession, outcome]
    exact ⟨names session rfl
      (last_of_active formed (List.mem_of_getElem? admits.place) terminal), rfl⟩
  | true =>
    obtain ⟨revision, _, outcome⟩ := isReplayed.ended terminal
    rw [AdmissionReplay.publicSession, outcome]
    exact ⟨names _ rfl (last_cut admits.place), rfl⟩

/-! ## The rows of a request stay -/

/-- A record that is still there is about the same request, Session and Turn. -/
private theorem change_same (change : Change codec permit db held after held')
    (recorded : db.idempotencyRecords.lookup key = some record)
    (still : after.idempotencyRecords.lookup key = some later) : SameRequest record later := by
  have same : after.idempotencyRecords.lookup key = some record → SameRequest record later := by
    intro found
    cases found.symm.trans still
    exact .refl record
  have patched : ∀ {hit move} {keeps : ∀ row, IdempotencyRow.key (move row) = row.key},
      db.idempotencyRecords.updateOne hit move keeps = some after.idempotencyRecords →
      SameRequest record (move record) → SameRequest record later := by
    intro hit move keeps written moved
    obtain ⟨_, updated⟩ := Table.updateOne_eq_some.mp written
    rw [updated, Table.lookup_updateWhere, recorded] at still
    cases still
    unfold patch
    split
    · exact moved
    · exact .refl record
  have deleted : ∀ {gone : IdempotencyRow → Bool},
      after.idempotencyRecords = db.idempotencyRecords.deleteWhere gone →
      SameRequest record later := by
    intro gone written
    rw [written, Table.lookup_deleteWhere, recorded] at still
    obtain ⟨found, _⟩ := Option.filter_eq_some_iff.mp still
    cases found
    exact .refl record
  cases change with
  | started _ _ _ _ _ _ _ _ _ _ opened | appended _ _ _ _ _ _ _ _ _ opened
  | stopOpened _ _ _ _ opened =>
    obtain ⟨_, inserted, _⟩ := opened
    exact same (Table.lookup_insert_of_some inserted recorded)
  | advanced _ _ _ _ _ _ follows =>
    obtain ⟨move, keeps, moved, facts⟩ := follows
    exact patched moved (facts record).1
  | stopClosed _ _ _ _ _ _ _ _ _ _ _ closed =>
    obtain ⟨close, keeps, moved, facts⟩ := closed
    exact patched moved (facts record).1
  | forgotten => exact deleted rfl
  | retired _ removed => exact deleted (deleteSessionMetadata_records removed).1
  | leaseSet | probesMarked | referenced | cancelled | logged | swept => exact same recorded

private theorem changes_same (changes : Changes codec permit db held after held')
    (either : permit = retiring ∨ ¬permit.retires)
    (recorded : db.idempotencyRecords.lookup key = some record) :
    (¬permit.retires → after.idempotencyRecords.lookup key ≠ none) ∧
      ∀ later, after.idempotencyRecords.lookup key = some later → SameRequest record later := by
  induction changes with
  | none =>
    refine ⟨fun _ => by simp [recorded], fun later still => ?_⟩
    cases recorded.symm.trans still
    exact .refl record
  | more before change ih =>
    obtain ⟨stays, same⟩ := ih
    refine ⟨fun admitting => (change_spares change admitting).kept (stays admitting), ?_⟩
    intro later still
    -- it was there in between: it is never deleted, or never made
    have there := either.elim
      (fun isRetiring => (change_fades (isRetiring ▸ change)).recorded (by simp [still])) stays
    obtain ⟨middle, found⟩ := Option.ne_none_iff_exists'.mp there
    exact (same middle found).trans (change_same change found still)

/-- The tombstone under the key, if there is one, counts at this time. -/
def Counts (codec : TimeCodec) (db : Database) (key : RequestKey) (time : OffsetDateTime) : Prop :=
  ∀ row ∈ db.admissionCancellations.lookup key, ¬Expired codec row time

/-- The record and the tombstone under the key are left. -/
def Leaves (key : RequestKey) (db after : Database) : Prop :=
  (db.idempotencyRecords.lookup key ≠ none → after.idempotencyRecords.lookup key ≠ none) ∧
    (db.admissionCancellations.lookup key ≠ none → after.admissionCancellations.lookup key ≠ none)

/-- The request has no record, or no tombstone. -/
def Exclusive (codec : TimeCodec) (db : Database) (key : RequestKey) : Prop :=
  ∃ slot, Shows codec db key slot ∧ slot.Apart

theorem Exclusive.unrecorded (exclusive : Exclusive codec db key)
    (buried : db.admissionCancellations.lookup key ≠ none) :
    db.idempotencyRecords.lookup key = none := by
  obtain ⟨slot, shows, apart⟩ := exclusive
  by_contra recorded
  have unmarked : slot.mark = none :=
    apart (shows.performed.trans (Option.isSome_iff_ne_none.mpr recorded))
  have reads := shows.mark
  rw [unmarked] at reads
  generalize db.admissionCancellations.lookup key = found at reads buried
  cases reads
  exact buried rfl

private theorem standing_of_counts (shows : Shows codec db key slot)
    (counts : Counts codec db key time) : slot.Standing time := by
  intro free
  have reads := shows.mark
  generalize found : db.admissionCancellations.lookup key = tombstone at reads
  obtain ⟨performed, mark⟩ := slot
  cases reads with
  | none => rfl
  | @some row =>
    obtain ⟨mark, seen⟩ := (unexpired_iff shows).mp ⟨row, found, counts row found⟩
    rw [free] at seen
    cases seen

/-- Every slot stands at some time. -/
private theorem standing_before (slot : Slot OffsetDateTime) :
    ∃ time : OffsetDateTime, slot.Standing time := by
  obtain ⟨performed, _ | ⟨mark, limit⟩⟩ := slot
  · exact ⟨0, fun _ => rfl⟩
  · refine ⟨limit - 1, fun free => ?_⟩
    obtain ⟨_, passed⟩ := Slot.visible_eq_none.mp free mark limit rfl
    have before : limit - 1 < limit := Int.sub_one_lt_iff.mpr (Int.le_refl limit)
    exact absurd passed before.not_ge

/-- A call while the tombstone counts, that leaves the rows of the request, keeps
them apart. -/
theorem serve_exclusive (represents : Represents codec db held) (exclusive : Exclusive codec db key)
    (counts : ∀ time, observes call = some (key, time) → Counts codec db key time) :
    Exclusive codec (serve codec db call).2 key := by
  obtain ⟨slot, shows, apart⟩ := exclusive
  cases retention : isRetention call with
  | true =>
    obtain ⟨next, showsNext, fade⟩ := (serve_fades represents retention).shows shows
    exact ⟨next, showsNext, fade.apart apart⟩
  | false =>
    have atTime : ∃ time, slot.Standing time ∧
        ∀ observedAt, observes call = some (key, observedAt) → observedAt = time := by
      by_cases asks : ∃ time, observes call = some (key, time)
      · obtain ⟨time, asks⟩ := asks
        refine ⟨time, standing_of_counts shows (counts time asks), ?_⟩
        intro observedAt observed
        cases observed.symm.trans asks
        rfl
      · obtain ⟨time, standing⟩ := standing_before slot
        exact ⟨time, standing, fun observedAt observed => absurd ⟨observedAt, observed⟩ asks⟩
    obtain ⟨time, standing, atTime⟩ := atTime
    obtain ⟨next, showsNext, step, _⟩ := serve_step represents shows retention atTime
    exact ⟨next, showsNext, step.apart standing apart⟩

theorem recorded_stays (represents : Represents codec db held)
    (left : (serve codec db call).2.idempotencyRecords.lookup (requestKey request) ≠ none)
    (recorded : Recorded db request sessionId turnId) :
    Recorded (serve codec db call).2 request sessionId turnId := by
  obtain ⟨record, found, own, session, turn⟩ := recorded
  obtain ⟨later, still⟩ := Option.ne_none_iff_exists'.mp left
  obtain ⟨held', changes⟩ := serve_changed represents call
  have either : permitted codec db call = retiring ∨ ¬(permitted codec db call).retires := by
    cases retention : isRetention call with
    | true => exact .inl (by cases call <;> first | rfl | cases retention)
    | false => exact .inr (serve_admitting retention)
  have same := (changes_same changes either found).2 later still
  exact ⟨later, still, ⟨same.digest.trans own.digest, same.schema.trans own.schema,
    same.keyVersion.trans own.keyVersion⟩, same.session.trans session, same.turn.trans turn⟩

/-! ## What the closures say -/

/-- An outcome of the slot that is true of the store. -/
def BacksOutcome (db : Database) (request : OperationRequest) : OperationOutcome Reply → Prop
  | .admission session turnId => Recorded db request session.sessionId turnId
  | _ => True

/-- An answer of the store that is true of it. -/
def Backs (db : Database) (request : OperationRequest) : DurableAdmissionOutcome Reply → Prop
  | .admitted outcome => BacksOutcome db request outcome
  | .cancelled => Buried db request
  | .missing | .recoveryPending => True

private theorem buried_of_visible
    (shows : Shows codec db (requestKey request) slot) (seen : slot.visible time = some mark) :
    Buried db request := by
  obtain ⟨limit, marked, _⟩ := Slot.visible_eq_some.mp seen
  have reads := shows.mark
  rw [marked] at reads
  intro missing
  rw [missing] at reads
  cases reads

/-- The answer that an admission is replayed with. -/
private theorem replayed_outcome
    (isPublic : replay.publicSession = .ok replay.outcome.session.toPublic)
    (made : durableAdmissionOutcome (.admitted replay) = .ok outcome) :
    outcome = .admitted (.admission replay.outcome.session.toPublic replay.turnId) := by
  simp only [durableAdmissionOutcome, isPublic] at made
  cases made
  rfl

private theorem cancelled_state
    (made : durableAdmissionOutcome state = .ok (.cancelled : DurableAdmissionOutcome Reply)) :
    state = .cancelled := by
  cases state with
  | missing | recoveryPending => cases made
  | cancelled => rfl
  | admitted replay =>
    simp only [durableAdmissionOutcome, except_bind_ok] at made
    obtain ⟨_, _, made⟩ := made
    cases made

section Closures
variable {request : OperationRequest} {input : IdempotencyInput} {db : Database}

/-- A call that is told of an admission is told what the record names. -/
theorem resolveClosure_named
    (reachable : ReachableStore codec db) (isAdmission : request.isAdmission = true)
    (presents : request.presents input = true)
    (ran : resolveClosure codec input expected db = .ok (.admitted outcome)) :
    ∃ whole turnId, outcome = .admission whole.toPublic turnId ∧ Named db request whole turnId := by
  unfold resolveClosure at ran
  simp only [except_bind_ok, mapError_ok] at ran
  obtain ⟨state, resolved, made⟩ := ran
  cases state with
  | missing | recoveryPending | cancelled => cases made
  | admitted replay =>
    unfold resolveAdmissionOperation at resolved
    simp only [except_bind_ok] at resolved
    obtain ⟨_, _, found, matching, resolved⟩ := resolved
    cases found with
    | none =>
      simp only [except_bind_ok] at resolved
      obtain ⟨tombstone, _, returned⟩ := resolved
      rcases tombstone with _ | _ | _ <;> cases returned
    | some record =>
      simp only [except_bind_ok] at resolved
      obtain ⟨_, replayed, returned⟩ := resolved
      cases returned
      obtain ⟨named, isPublic⟩ := replay_named reachable isAdmission presents matching replayed
      cases replayed_outcome isPublic made
      exact ⟨_, _, rfl, named⟩

theorem resolveClosure_backs
    (reachable : ReachableStore codec db) (isAdmission : request.isAdmission = true)
    (presents : request.presents input = true)
    (exclusive : Exclusive codec db (requestKey request))
    (ran : resolveClosure codec input expected db = .ok outcome) : Backs db request outcome := by
  cases outcome with
  | missing | recoveryPending => trivial
  | admitted outcome =>
    obtain ⟨whole, turnId, rfl, named⟩ := resolveClosure_named reachable isAdmission presents ran
    exact named.recorded
  | cancelled =>
    unfold resolveClosure at ran
    simp only [except_bind_ok, mapError_ok] at ran
    obtain ⟨state, resolved, made⟩ := ran
    obtain ⟨slot, shows, _⟩ := exclusive
    rw [← key_of_presents presents] at shows
    have agrees := resolve_agrees shows resolved
    rw [cancelled_state made] at agrees
    rw [key_of_presents presents] at shows
    exact buried_of_visible shows agrees

/-- A cancellation finds the request admitted, or leaves a tombstone. -/
private theorem cancels_state (did : Cancels codec db input outcome time reconciled state after) :
    state ≠ .missing ∧ ∀ replay, state = .admitted replay → after = db ∧ ∃ record expected,
      matchingIdempotency db input = .ok (some record) ∧
        replayAdmission codec db record expected = .ok replay := by
  cases did with
  | admitted matching replayed =>
    refine ⟨by simp, ?_⟩
    rintro replay ⟨⟩
    exact ⟨rfl, _, _, matching, replayed⟩
  | @found existing =>
    cases existing
    all_goals
      refine ⟨by simp [DurableAdmissionState.ofCancellation], ?_⟩
      rintro replay ⟨⟩
  | settled | suspended =>
    refine ⟨by simp, ?_⟩
    rintro replay ⟨⟩
  | inserted =>
    cases outcome
    all_goals
      refine ⟨by simp [DurableAdmissionState.ofCancellation], ?_⟩
      rintro replay ⟨⟩

/-- The state a closure that persists a cancellation is told, and how the call came
to it. -/
private theorem persisted_state (presents : request.presents input = true)
    (asked : persistCall input expected outcome = some call)
    (told : persisted (serve codec db call).1 = some (.ok answer)) :
    observes call = some (requestKey request, input.createdAt) ∧
    ∃ state durable reconciled, (serve codec db call).1 = .ok (.cancellation state) ∧
      durableAdmissionOutcome state = .ok answer ∧
      Cancels codec db input durable input.createdAt reconciled state (serve codec db call).2 := by
  obtain ⟨durable, _, made⟩ := Option.map_eq_some_iff.mp asked
  have parts : observes call = some (requestKey request, input.createdAt) ∧
      ∃ reconciled, cancellation call = some (input, durable, input.createdAt, reconciled) := by
    rw [← key_of_presents presents]
    split at made
    all_goals
      subst made
      exact ⟨rfl, _, rfl⟩
  obtain ⟨observed, reconciled, cancels⟩ := parts
  cases replied : (serve codec db call).1 with
  | error e =>
    rw [replied] at told
    cases told
  | ok reply =>
    have ran : serve codec db call = (.ok reply, (serve codec db call).2) := Prod.ext replied rfl
    obtain ⟨state, rfl, did⟩ := serve_cancels cancels ran
    rw [replied] at told
    exact ⟨observed, state, durable, reconciled, rfl, Option.some.inj told, did⟩

section
variable (reachable : ReachableStore codec db)
include reachable

section Admission
variable (isAdmission : request.isAdmission = true)
include isAdmission

/-- A closure that persists a cancellation is never told that nothing is known, and
is told of an admission what the record names. -/
theorem persisted_named (presents : request.presents input = true)
    (asked : persistCall input expected outcome = some call)
    (told : persisted (serve codec db call).1 = some (.ok answer)) :
    answer ≠ .missing ∧ ∀ outcome, answer = .admitted outcome → ∃ whole turnId,
      outcome = .admission whole.toPublic turnId ∧
        Named (serve codec db call).2 request whole turnId := by
  obtain ⟨_, state, _, _, _, made, did⟩ := persisted_state presents asked told
  obtain ⟨notMissing, ofReplay⟩ := cancels_state did
  cases state with
  | missing => exact absurd rfl notMissing
  | recoveryPending | cancelled =>
    cases made
    exact ⟨by simp, by rintro outcome ⟨⟩⟩
  | admitted replay =>
    obtain ⟨unchanged, record, expected, matching, replayed⟩ := ofReplay replay rfl
    obtain ⟨named, isPublic⟩ := replay_named reachable isAdmission presents matching replayed
    cases replayed_outcome isPublic made
    refine ⟨by simp, ?_⟩
    rintro outcome ⟨⟩
    rw [unchanged]
    exact ⟨_, _, rfl, named⟩

/-- A closure that persists a cancellation is told what became of the request,
never that nothing did. -/
theorem persisted_backs (presents : request.presents input = true)
    (exclusive : Exclusive codec db (requestKey request))
    (asked : persistCall input expected outcome = some call)
    (told : persisted (serve codec db call).1 = some (.ok answer)) :
    Backs (serve codec db call).2 request answer ∧ answer ≠ .missing := by
  obtain ⟨notMissing, ofRecord⟩ := persisted_named reachable isAdmission presents asked told
  refine ⟨?_, notMissing⟩
  cases answer with
  | missing | recoveryPending => trivial
  | admitted outcome =>
    obtain ⟨whole, turnId, rfl, named⟩ := ofRecord outcome rfl
    exact named.recorded
  | cancelled =>
    obtain ⟨held, represents⟩ := reachable_represents reachable
    obtain ⟨slot, shows, _⟩ := exclusive
    obtain ⟨observed, state, _, _, replied, made, _⟩ := persisted_state presents asked told
    obtain ⟨next, showsNext, _, agrees⟩ := serve_step_asked represents shows observed
    have verdict := agrees _ _ replied rfl
    rw [cancelled_state made] at verdict
    exact buried_of_visible showsNext verdict

/-- What an operation is told of an earlier admission. -/
theorem replayClosure_named (presents : request.presents input = true)
    (ran : replayClosure codec input expected db = .ok (some session)) :
    ∃ whole turnId, session = whole.toPublic ∧ Named db request whole turnId := by
  unfold replayClosure replayAdmissionIfPresent at ran
  simp only [except_bind_ok, mapError_ok] at ran
  obtain ⟨found, ⟨_, _, record, matching, replayed⟩, made⟩ := ran
  cases record with
  | none =>
    cases replayed
    cases made
  | some record =>
    cases read : replayAdmission codec db record expected with
    | error e =>
      simp only [Option.mapM_some, read] at replayed
      cases replayed
    | ok replay =>
      simp only [Option.mapM_some, read] at replayed
      cases replayed
      obtain ⟨named, isPublic⟩ := replay_named reachable isAdmission presents matching read
      simp only [Option.mapM_some, isPublic] at made
      cases made
      exact ⟨_, _, rfl, named⟩

/-- What a transaction that has admitted a Turn tells its operation. -/
theorem begin_named (own : call.admissionInput.any request.presents = true)
    (ran : serve codec db call = (.ok (.admission outcome), after)) :
    ∃ turnId, Named after request outcome.session turnId := by
  obtain ⟨held, represents⟩ := reachable_represents reachable
  obtain ⟨input, isInput, began⟩ := serve_began represents ran
  have presents : request.presents input = true := by simpa [isInput] using own
  cases began with
  | replayed matching replayed =>
    exact ⟨_, (replay_named reachable isAdmission presents matching replayed).1⟩
  | admitted last recorded facts =>
    refine ⟨_, last, _, ?_, ofRequest_of_matches presents facts.matching, facts.session, facts.turn⟩
    rw [← key_of_presents presents, recorded]

end Admission

end

end Closures

end Satelle.AdmissionVerdicts
