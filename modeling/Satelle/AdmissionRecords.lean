import Satelle.StoreTransactions

/-! Admission records follow the Turns they admitted. Every Turn has one record
of a run or steer request, which tells its state; once the Turn is terminal the
record holds the revision and time at which the Session was then. -/
namespace Satelle.AdmissionRecords
open Satelle.Core Lib Host SessionInvariants SessionLifecycle StoreStatements StoreChanges
open StoreRepresentation StoreTransactions

/-- A record of a request that admits a Turn. -/
def isAdmission (record : IdempotencyRow) : Bool :=
  record.operation = "run" || record.operation = "steer"

/-- The record that admitted the Turn at a position of a Session. -/
structure Admits (codec : TimeCodec) (record : IdempotencyRow) (session : Session) (index : Nat)
    (turn : Turn) : Prop where
  place : session.turns[index]? = some turn
  ofSession : record.sessionId = some session.id.text
  ofTurn : record.turnId = some turn.id.text
  outcome : record.durableOutcome = turnIdempotencyToken turn.state
  running : turn.state.isTerminal = false → record.status = "in_progress"
  ended : turn.state.isTerminal = true → record.status = "terminal" ∧
    ∃ revision : SessionStateRevision,
      revision.value = revisionSum (session.turns.take (index + 1)) ∧
        Saves codec record revision turn.updatedAt

/-- The records of admissions and the Turns of the held Sessions belong to each
other one to one. -/
structure RecordsTrack (codec : TimeCodec) (records : RecordTable) (held : Sessions) :
    Prop where
  named : ∀ record ∈ records.rows, isAdmission record = true → ∃ session index turn,
    held session.id = some session ∧ Admits codec record session index turn
  recorded : ∀ session turn, held session.id = some session → turn ∈ session.turns →
    ∃ record ∈ records.rows, isAdmission record = true ∧
      record.sessionId = some session.id.text ∧ record.turnId = some turn.id.text
  unique : ∀ record ∈ records.rows, ∀ other ∈ records.rows, isAdmission record = true →
    isAdmission other = true → record.turnId = other.turnId → record = other

/-! ## The invariant is kept -/

/-- Only the records of admissions matter. -/
private theorem sameAdmissions_records
    (records : RecordsTrack codec before held)
    (same : ∀ record, isAdmission record = true → (record ∈ after.rows ↔ record ∈ before.rows)) :
    RecordsTrack codec after held where
  named := fun record member admission =>
    records.named record ((same record admission).mp member) admission
  recorded := by
    intro session turn known member
    obtain ⟨record, there, admission, facts⟩ := records.recorded session turn known member
    exact ⟨record, (same record admission).mpr there, admission, facts⟩
  unique := by
    intro record member other otherMember admission otherAdmission
    exact records.unique record ((same record admission).mp member) other
      ((same other otherAdmission).mp otherMember) admission otherAdmission

/-- A longer history that begins with the shorter one admits as before. -/
private theorem admits_extended
    (admits : Admits codec record session index turn) (sameId : later.id = session.id)
    (inside : index < earlier.length) (shape : session.turns = earlier ++ rest)
    (laterShape : later.turns = earlier ++ more) : Admits codec record later index turn where
  place := by
    have place := admits.place
    rw [shape, List.getElem?_append_left inside] at place
    rw [laterShape, List.getElem?_append_left inside, place]
  ofSession := sameId ▸ admits.ofSession
  ofTurn := admits.ofTurn
  outcome := admits.outcome
  running := admits.running
  ended := by
    have beginning : later.turns.take (index + 1) = session.turns.take (index + 1) := by
      rw [shape, laterShape, List.take_append_of_le_length (by omega),
        List.take_append_of_le_length (by omega)]
    rw [beginning]
    exact admits.ended

/-- The Session a value of a replaced id belongs to. -/
private theorem known_update {held : Sessions}
    (known : Function.update held writtenId (some value) session.id = some session) :
    session = value ∨ (session.id ≠ writtenId ∧ held session.id = some session) := by
  by_cases same : session.id = writtenId
  · rw [same, Function.update_self, Option.some.injEq] at known
    exact .inl known.symm
  · rw [Function.update_of_ne same] at known
    exact .inr ⟨same, known⟩

private theorem known_other {held : Sessions} (other : session.id ≠ writtenId)
    (known : held session.id = some session) :
    Function.update held writtenId changed session.id = some session := by
  rw [Function.update_of_ne other, known]

/-- A Turn that is admitted brings its record. -/
private theorem opened_records (records : RecordsTrack codec before held)
    (opened : RecordOpened before input "v1.turn.starting" session.id turn.id after)
    (admission : input.operation = .run ∨ input.operation = .steer)
    (shape : session.turns = earlier ++ [turn]) (starting : turn.state = .starting)
    (grown : ∀ old, held session.id = some old → old.turns = earlier ++ [])
    (covered : ∀ other ∈ earlier, ∃ old, held session.id = some old ∧ old.id = session.id ∧
      other ∈ old.turns)
    (fresh : ∀ other otherTurn, held other.id = some other → otherTurn ∈ other.turns →
      otherTurn.id ≠ turn.id) :
    RecordsTrack codec after (Function.update held session.id (some session)) := by
  obtain ⟨record, inserted, isOpened⟩ := opened
  obtain ⟨_, rows⟩ := Table.insert_eq_some.mp inserted
  have own : Admits codec record session earlier.length turn := by
    refine ⟨by simp [shape], isOpened.session, isOpened.turn, ?_, fun _ => isOpened.status, ?_⟩
    · rw [isOpened.outcome, starting]
      rfl
    · intro terminal
      rw [starting] at terminal
      cases terminal
  have isOwn : isAdmission record = true := by
    unfold isAdmission
    rw [isOpened.operation]
    rcases admission with run | steer
    · rw [run]
      decide
    · rw [steer]
      decide
  -- no earlier record names the new Turn
  have apart : ∀ other ∈ before.rows, isAdmission other = true → other.turnId ≠ record.turnId := by
    intro other member admission same
    obtain ⟨session, index, turn, known, admits⟩ := records.named other member admission
    rw [admits.ofTurn, isOpened.turn, Option.some.injEq, PublicId.text_inj] at same
    exact fresh session turn known (List.mem_of_getElem? admits.place) same
  refine ⟨?_, ?_, ?_⟩
  · intro other member admission
    rw [rows, List.mem_append, List.mem_singleton] at member
    rcases member with old | rfl
    · obtain ⟨owner, index, admitted, known, admits⟩ := records.named other old admission
      by_cases same : owner.id = session.id
      · have shapeBefore := grown owner (same ▸ known)
        have inside : index < earlier.length := by
          obtain ⟨bound, _⟩ := List.getElem?_eq_some_iff.mp admits.place
          simpa [shapeBefore] using bound
        exact ⟨session, index, admitted, Function.update_self ..,
          admits_extended admits same.symm inside shapeBefore shape⟩
      · exact ⟨owner, index, admitted, known_other same known, admits⟩
    · exact ⟨session, earlier.length, turn, Function.update_self .., own⟩
  · intro owner admitted known member
    rcases known_update known with rfl | ⟨_, known⟩
    · rw [shape, List.mem_append, List.mem_singleton] at member
      rcases member with early | rfl
      · obtain ⟨old, knownOld, sameId, inOld⟩ := covered admitted early
        obtain ⟨other, there, admission, ofSession, ofTurn⟩ :=
          records.recorded old admitted (sameId ▸ knownOld) inOld
        exact ⟨other, by simp [rows, there], admission, sameId ▸ ofSession, ofTurn⟩
      · exact ⟨record, by simp [rows], isOwn, isOpened.session, isOpened.turn⟩
    · obtain ⟨other, there, facts⟩ := records.recorded owner admitted known member
      exact ⟨other, by simp [rows, there], facts⟩
  · intro one member two otherMember admission otherAdmission same
    rw [rows, List.mem_append, List.mem_singleton] at member otherMember
    rcases member with old | rfl
    · rcases otherMember with otherOld | rfl
      · exact records.unique one old two otherOld admission otherAdmission same
      · exact absurd same (apart one old admission)
    · rcases otherMember with otherOld | rfl
      · exact absurd same.symm (apart two otherOld otherAdmission)
      · rfl

private theorem sameRequest_admission (same : SameRequest record later) :
    isAdmission later = isAdmission record := by
  simp [isAdmission, same.operation]

/-- The record of the Turn that moved moves with it. -/
private theorem follows_records (represents : Represents codec db held)
    (records : RecordsTrack codec before held) (known : held start.id = some start)
    (formed : WellFormed session) (advances : Advances start session last turn)
    (follows : RecordFollows codec before session turn.id turn.state after) :
    RecordsTrack codec after (Function.update held start.id (some session)) := by
  obtain ⟨earlier, shape, moved⟩ := advances.shape
  have formedBefore := (represents.stored _ _ known).2.formed
  have sameId := advances.same.id
  obtain ⟨move, keeps, updated, facts⟩ := follows
  obtain ⟨_, rfl⟩ := Table.updateOne_eq_some.mp updated
  have request : ∀ record, SameRequest record
      (patch (IdempotencyRow.admits session.id turn.id) move record) := by
    intro record
    by_cases hit : IdempotencyRow.admits session.id turn.id record = true
    · rw [patch, if_pos hit]
      exact (facts record).1
    · rw [patch, if_neg hit]
      exact ⟨rfl, rfl, rfl, rfl, rfl, rfl, rfl, rfl⟩
  refine ⟨?_, ?_, ?_⟩
  · intro record member admission
    obtain ⟨old, there, rfl⟩ := List.mem_map.mp member
    rw [sameRequest_admission (request old)] at admission
    obtain ⟨owner, index, admitted, knownOwner, admits⟩ := records.named old there admission
    have hitIff : IdempotencyRow.admits session.id turn.id old = true ↔
        owner.id = start.id ∧ admitted.id = last.id := by
      simp only [isAdmission, Bool.or_eq_true, decide_eq_true_eq] at admission
      simp [IdempotencyRow.admits, admits.ofSession, admits.ofTurn, PublicId.text_inj, sameId,
        advances.id, admission]
    by_cases hit : IdempotencyRow.admits session.id turn.id old = true
    · rw [patch, if_pos hit]
      have tells := (facts old).2
      have whole : session.turns.take (earlier.length + 1) = session.turns := by
        rw [moved, List.take_of_length_le (by simp)]
      have latest : turn.updatedAt = session.updatedAt := by simpa [moved] using formed.latest
      obtain ⟨ofOwner, ofAdmitted⟩ := hitIff.mp hit
      refine ⟨session, earlier.length, turn, by rw [sameId]; exact Function.update_self .., ?_⟩
      refine ⟨by simp [moved], ?_, ?_, tells.outcome, tells.running, ?_⟩
      · rw [(facts old).1.session, admits.ofSession, ofOwner, sameId]
      · rw [(facts old).1.turn, admits.ofTurn, ofAdmitted, advances.id]
      · intro terminal
        obtain ⟨status, saves⟩ := tells.ended terminal
        exact ⟨status, session.revision, by rw [whole, formed.summed], latest ▸ saves⟩
    · rw [patch, if_neg hit]
      by_cases same : owner.id = start.id
      · have isStart : owner = start := by
          rw [same, known] at knownOwner
          exact (Option.some.inj knownOwner).symm
        subst isStart
        have inside : index < earlier.length := by
          by_contra outside
          have place := admits.place
          rw [shape, List.getElem?_append_right (by omega)] at place
          have isLast := List.mem_singleton.mp (List.mem_of_getElem? place)
          exact hit (hitIff.mpr ⟨rfl, by rw [isLast]⟩)
        exact ⟨session, index, admitted, by rw [sameId]; exact Function.update_self ..,
          admits_extended admits sameId inside shape moved⟩
      · exact ⟨owner, index, admitted, known_other same knownOwner, admits⟩
  · intro owner admitted knownOwner member
    have found : ∃ record ∈ before.rows, isAdmission record = true ∧
        record.sessionId = some owner.id.text ∧ record.turnId = some admitted.id.text := by
      rcases known_update knownOwner with rfl | ⟨_, knownOther⟩
      · rw [moved, List.mem_append, List.mem_singleton] at member
        rcases member with early | rfl
        · rw [sameId]
          exact records.recorded start admitted known (by simp [shape, early])
        · rw [sameId, advances.id]
          exact records.recorded start last known (by simp [shape])
      · exact records.recorded owner admitted knownOther member
    obtain ⟨record, there, admission, ofSession, ofTurn⟩ := found
    have same := request record
    exact ⟨_, List.mem_map_of_mem there, by rw [sameRequest_admission same, admission],
      same.session.trans ofSession, same.turn.trans ofTurn⟩
  · intro record member other otherMember admission otherAdmission same
    obtain ⟨old, there, rfl⟩ := List.mem_map.mp member
    obtain ⟨otherOld, otherThere, rfl⟩ := List.mem_map.mp otherMember
    rw [sameRequest_admission (request old)] at admission
    rw [sameRequest_admission (request otherOld)] at otherAdmission
    rw [(request old).turn, (request otherOld).turn] at same
    rw [records.unique old there otherOld otherThere admission otherAdmission same]

/-- Completing a stop touches no admission. -/
private theorem stopClosed_records (records : RecordsTrack codec before held)
    (closed : StopClosed codec before input token session after) :
    RecordsTrack codec after held := by
  obtain ⟨close, keeps, updated, facts⟩ := closed
  obtain ⟨_, rfl⟩ := Table.updateOne_eq_some.mp updated
  have spared : ∀ record, isAdmission record = true → isOpenStop input record = false := by
    intro record admission
    simp only [isAdmission, Bool.or_eq_true, decide_eq_true_eq] at admission
    rcases admission with run | steer
    · simp [isOpenStop, run]
    · simp [isOpenStop, steer]
  refine sameAdmissions_records records fun record admission => ?_
  rw [Table.rows_updateWhere, List.mem_map]
  constructor
  · rintro ⟨old, there, rfl⟩
    by_cases hit : isOpenStop input old = true
    · rw [patch, if_pos hit, sameRequest_admission (facts old).1] at admission
      rw [spared old admission] at hit
      cases hit
    · rw [patch, if_neg hit]
      exact there
  · intro member
    exact ⟨record, member, by rw [patch, if_neg (by simp [spared record admission])]⟩

/-- The records of a removed Session go with it. -/
private theorem retired_records (records : RecordsTrack codec db.idempotencyRecords held)
    (removed : deleteSessionMetadata db sessionId = .ok after) :
    RecordsTrack codec after.idempotencyRecords (Function.update held sessionId none) := by
  have others : ∀ record, record ∈ after.idempotencyRecords.rows ↔
      record ∈ db.idempotencyRecords.rows ∧ record.sessionId ≠ some sessionId.text := by
    intro record
    rw [(deleteSessionMetadata_records removed).1]
    simp [List.mem_filter]
  refine ⟨?_, ?_, ?_⟩
  · intro record member admission
    obtain ⟨there, spared⟩ := (others record).mp member
    obtain ⟨owner, index, admitted, known, admits⟩ := records.named record there admission
    have other : owner.id ≠ sessionId := by
      rintro rfl
      exact spared admits.ofSession
    exact ⟨owner, index, admitted, known_other other known, admits⟩
  · intro owner admitted known member
    have other : owner.id ≠ sessionId := by
      intro same
      rw [same, Function.update_self] at known
      cases known
    rw [Function.update_of_ne other] at known
    obtain ⟨record, there, admission, ofSession, ofTurn⟩ :=
      records.recorded owner admitted known member
    refine ⟨record, (others record).mpr ⟨there, ?_⟩, admission, ofSession, ofTurn⟩
    rw [ofSession, ne_eq, Option.some.injEq, PublicId.text_inj]
    exact other
  · intro record member other otherMember
    exact records.unique record ((others record).mp member).1 other
      ((others other).mp otherMember).1

theorem change_records (represents : Represents codec db held)
    (records : RecordsTrack codec db.idempotencyRecords held)
    (change : Change codec permit db held after held') :
    RecordsTrack codec after.idempotencyRecords held' := by
  -- a stop that is opened adds a record of another operation
  have opened : ∀ {input : IdempotencyInput} {token : String} {sessionId : SessionId}
      {turnId : TurnId} {rows : RecordTable}, input.operation = .stop →
      RecordOpened db.idempotencyRecords input token sessionId turnId rows →
      RecordsTrack codec rows held := by
    rintro input token sessionId turnId rows isStop ⟨record, inserted, isOpened⟩
    obtain ⟨_, appended⟩ := Table.insert_eq_some.mp inserted
    refine sameAdmissions_records records fun other admission => ?_
    rw [appended, List.mem_append, List.mem_singleton, or_iff_left]
    rintro rfl
    simp [isAdmission, isOpened.operation, isStop, idempotentOperationToken] at admission
  cases change with
  | @started session turn _ _ _ _ _ _ _ _ _ formed only starting input isRun _ sessionAdded
      turnAdded _ recorded =>
    have free := sessionAdded_free represents sessionAdded
    have shape : session.turns = [] ++ [turn] := only
    refine opened_records records recorded (.inl isRun) shape starting ?_ ?_ ?_
    · intro old known
      rw [free] at known
      cases known
    · intro other member
      cases member
    · intro other otherTurn known member
      exact turnAdded_fresh represents turnAdded known member
  | @appended before later turn _ _ _ _ _ _ _ _ known formed appends input isSteer _ _ turnAdded _
      recorded =>
    have sameId : later.id = before.id := appends.same.id
    rw [← sameId] at recorded ⊢
    refine opened_records records recorded (.inr isSteer) appends.shape appends.starting ?_ ?_ ?_
    · intro old knownOld
      rw [sameId, known, Option.some.injEq] at knownOld
      rw [← knownOld, List.append_nil]
    · intro other member
      exact ⟨before, by rw [sameId, known], sameId.symm, member⟩
    · intro other otherTurn knownOther member
      exact turnAdded_fresh represents turnAdded knownOther member
  | advanced known formed advances _ _ _ recordFollows =>
    exact follows_records represents records known formed advances recordFollows
  | stopOpened _ _ _ isStop recorded => exact opened isStop recorded
  | stopClosed _ _ _ _ _ _ _ _ _ _ _ closed => exact stopClosed_records records closed
  | forgotten sessionless =>
    refine sameAdmissions_records records fun record admission => ?_
    simp only [Table.rows_deleteWhere, List.mem_filter, and_iff_left_iff_imp, Bool.not_eq_true',
      ← Bool.not_eq_true]
    intro member gone
    obtain ⟨session, _, _, _, admits⟩ := records.named record member admission
    cases (sessionless record gone).symm.trans admits.ofSession
  | retired _ removed => exact retired_records records removed
  | leaseSet | probesMarked | referenced | cancelled | logged | swept => exact records

private theorem fresh_records (fresh : Fresh db) :
    RecordsTrack codec db.idempotencyRecords (fun _ => none) where
  named := by
    intro record member admission
    obtain ⟨_, notRun, notSteer, _⟩ := fresh.records record member
    simp [isAdmission, notRun, notSteer] at admission
  recorded := by
    intro session turn known
    cases known
  unique := by
    intro record member other otherMember admission
    obtain ⟨_, notRun, notSteer, _⟩ := fresh.records record member
    simp [isAdmission, notRun, notSteer] at admission

theorem reachable_records (reachable : ReachableBy codec allowed db) :
    ∃ held, Represents codec db held ∧ RecordsTrack codec db.idempotencyRecords held :=
  reachable_invariant (fun db held => RecordsTrack codec db.idempotencyRecords held)
    (fun _ => fresh_records)
    (fun _ _ _ _ _ _ _ represents records change => change_records represents records change)
    reachable

end Satelle.AdmissionRecords
