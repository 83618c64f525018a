import Satelle.StoreTransactions

/-! What stays in the store as long as a Session stays: the beginning of its
history up to a terminal Turn, the request a record answers, and a completed
stop. A replay reads nothing else. -/
namespace Satelle.StoreHistory
open Satelle.Core Lib Host SessionInvariants SessionLifecycle StoreRows StoreStatements StoreChanges
open StoreEffects StoreRepresentation StoreTransactions

/-! ## Sessions -/

/-- A later value of a Session: Turns stay in their places, and what a terminal
Turn closes is final. -/
structure Keeps (session later : Session) : Prop where
  same : SameIdentity session later
  placed : ∀ (index : Nat) (turn : Turn), session.turns[index]? = some turn →
    ∃ moved : Turn, later.turns[index]? = some moved ∧ moved.id = turn.id
  settled : ∀ index turn, session.turns[index]? = some turn → turn.state.isTerminal = true →
    later.turns.take (index + 1) = session.turns.take (index + 1)

theorem Keeps.refl (session : Session) : Keeps session session where
  same := ⟨rfl, rfl, rfl, rfl, rfl⟩
  placed := fun _ turn found => ⟨turn, found, rfl⟩
  settled := fun _ _ _ _ => rfl

theorem Keeps.turn_at {index : Nat}
    (keeps : Keeps session later) (found : session.turns[index]? = some turn)
    (terminal : turn.state.isTerminal = true) : later.turns[index]? = some turn := by
  have beginning := congrArg (fun turns : List Turn => turns[index]?)
    (keeps.settled index turn found terminal)
  simpa [List.getElem?_take, found] using beginning

theorem Keeps.trans {session middle later : Session} (first : Keeps session middle)
    (second : Keeps middle later) : Keeps session later where
  same := {
    id := second.same.id.trans first.same.id
    displayName := second.same.displayName.trans first.same.displayName
    host := second.same.host.trans first.same.host
    binding := second.same.binding.trans first.same.binding
    createdAt := second.same.createdAt.trans first.same.createdAt }
  placed := by
    intro index turn found
    obtain ⟨next, foundNext, sameNext⟩ := first.placed index turn found
    obtain ⟨final, foundFinal, sameFinal⟩ := second.placed index next foundNext
    exact ⟨final, foundFinal, sameFinal.trans sameNext⟩
  settled := by
    intro index turn found terminal
    rw [second.settled index turn (first.turn_at found terminal) terminal,
      first.settled index turn found terminal]

private theorem appends_keeps (appends : Appends before after turn) : Keeps before after where
  same := appends.same
  placed := by
    intro index other found
    obtain ⟨inside, _⟩ := List.getElem?_eq_some_iff.mp found
    exact ⟨other, by rw [appends.shape, List.getElem?_append_left inside, found], rfl⟩
  settled := by
    intro index other found _
    obtain ⟨inside, _⟩ := List.getElem?_eq_some_iff.mp found
    rw [appends.shape, List.take_append_of_le_length (by omega)]

private theorem advances_keeps (advances : Advances before after last turn) :
    Keeps before after where
  same := advances.same
  placed := by
    obtain ⟨earlier, shape, moved⟩ := advances.shape
    intro index other found
    rw [shape] at found
    rw [moved]
    by_cases inside : index < earlier.length
    · rw [List.getElem?_append_left inside] at found ⊢
      exact ⟨other, found, rfl⟩
    · rw [List.getElem?_append_right (by omega)] at found ⊢
      obtain ⟨atEnd, rfl⟩ := List.getElem?_eq_some_iff.mp found
      rw [List.length_singleton, Nat.lt_one_iff] at atEnd
      exact ⟨turn, by rw [atEnd]; rfl, by simpa [atEnd] using advances.id⟩
  settled := by
    obtain ⟨earlier, shape, moved⟩ := advances.shape
    intro index other found terminal
    -- the Turn that moved was not terminal, so the position is before it
    have inside : index < earlier.length := by
      by_contra outside
      rw [shape, List.getElem?_append_right (by omega)] at found
      have atEnd := List.mem_of_getElem? found
      rw [List.mem_singleton] at atEnd
      rw [atEnd, advances.active] at terminal
      cases terminal
    rw [shape, moved, List.take_append_of_le_length (by omega),
      List.take_append_of_le_length (by omega)]

/-- A change leaves every Session it leaves at all a later value of itself. -/
theorem change_session (represents : Represents codec db held)
    (change : Change codec permit db held after held') (known : held sessionId = some session)
    (remains : held' sessionId = some later) : Keeps session later := by
  -- a change that writes one Session
  have written : ∀ {writtenId : SessionId} {value : Session},
      (∀ before, held writtenId = some before → Keeps before value) →
      Function.update held writtenId (some value) sessionId = some later →
      Keeps session later := by
    intro writtenId value own remains
    by_cases same : writtenId = sessionId
    · subst same
      rw [Function.update_self, Option.some.injEq] at remains
      exact remains ▸ own session known
    · rw [Function.update_of_ne (Ne.symm same), known, Option.some.injEq] at remains
      exact remains ▸ Keeps.refl session
  have unchanged : held sessionId = some later → Keeps session later := by
    intro remains
    rw [known, Option.some.injEq] at remains
    exact remains ▸ Keeps.refl session
  cases change with
  | started _ _ _ _ _ _ _ sessionAdded =>
    refine written (fun before held => ?_) remains
    rw [sessionAdded_free represents sessionAdded] at held
    cases held
  | appended known _ appends =>
    refine written (fun before held => ?_) remains
    cases known.symm.trans held
    exact appends_keeps appends
  | advanced known _ advances =>
    refine written (fun before held => ?_) remains
    cases known.symm.trans held
    exact advances_keeps advances
  | @retired removedId _ _ removed =>
    by_cases same : sessionId = removedId
    · rw [same, Function.update_self] at remains
      cases remains
    · rw [Function.update_of_ne same] at remains
      exact unchanged remains
  | leaseSet | probesMarked | stopOpened | stopClosed | referenced | cancelled | logged | swept
  | forgotten => exact unchanged remains

/-! ## Records -/

/-- A later value of a record: it answers the same request, and a completed stop
is final. -/
structure LaterRecord (record later : IdempotencyRow) : Prop where
  same : SameRequest record later
  closed : record.operation = "stop" → record.status = "terminal" → later = record

theorem LaterRecord.refl (record : IdempotencyRow) : LaterRecord record record where
  same := .refl record
  closed := fun _ _ => rfl

theorem LaterRecord.trans
    (first : LaterRecord record middle) (second : LaterRecord middle later) :
    LaterRecord record later where
  same := first.same.trans second.same
  closed := by
    intro isStop ended
    obtain rfl := first.closed isStop ended
    exact second.closed isStop ended

/-- An update that spares completed stops leaves a later record. -/
private theorem patch_laterRecord (moved : SameRequest record (move record))
    (spared : record.operation = "stop" → record.status = "terminal" → hit record = false) :
    LaterRecord record (patch hit move record) := by
  by_cases found : hit record = true
  · rw [patch, if_pos found]
    refine ⟨moved, fun isStop ended => ?_⟩
    rw [spared isStop ended] at found
    cases found
  · rw [patch, if_neg found]
    exact LaterRecord.refl record

/-- A change leaves every record of a Session that stays. -/
theorem change_record (change : Change codec permit db held after held')
    (recorded : db.idempotencyRecords.lookup key = some record)
    (ofSession : record.sessionId = some sessionId.text) (remains : held' sessionId ≠ none) :
    ∃ later, after.idempotencyRecords.lookup key = some later ∧ LaterRecord record later := by
  cases change with
  | started _ _ _ _ _ _ _ _ _ _ opened | appended _ _ _ _ _ _ _ _ _ opened
  | stopOpened _ _ _ _ opened =>
    obtain ⟨_, inserted, _⟩ := opened
    exact ⟨record, Table.lookup_insert_of_some inserted recorded, .refl record⟩
  | advanced _ _ _ _ _ _ follows =>
    obtain ⟨move, keeps, moved, facts⟩ := follows
    obtain ⟨_, rfl⟩ := Table.updateOne_eq_some.mp moved
    refine ⟨_, by rw [Table.lookup_updateWhere, recorded]; rfl, ?_⟩
    refine patch_laterRecord (facts record).1 fun isStop _ => ?_
    simp [IdempotencyRow.admits, isStop]
  | stopClosed _ _ _ _ _ _ _ _ _ _ _ closed =>
    obtain ⟨close, keeps, moved, facts⟩ := closed
    obtain ⟨_, rfl⟩ := Table.updateOne_eq_some.mp moved
    refine ⟨_, by rw [Table.lookup_updateWhere, recorded]; rfl, ?_⟩
    refine patch_laterRecord (facts record).1 fun _ ended => ?_
    simp [isOpenStop, ended]
  | forgotten sessionless =>
    refine ⟨record, ?_, .refl record⟩
    rw [Table.lookup_deleteWhere, recorded, Option.filter_some, if_pos]
    rw [Bool.not_eq_true', ← Bool.not_eq_true]
    intro gone
    rw [sessionless record gone] at ofSession
    cases ofSession
  | @retired removedId _ _ removed =>
    refine ⟨record, ?_, .refl record⟩
    rw [(deleteSessionMetadata_records removed).1, Table.lookup_deleteWhere, recorded, Option.filter_some, if_pos]
    have other : sessionId ≠ removedId := by
      rintro rfl
      exact remains (Function.update_self ..)
    simp [ofSession, PublicId.text_inj, other]
  | leaseSet | probesMarked | referenced | cancelled | logged | swept =>
    exact ⟨record, recorded, .refl record⟩

/-! ## Calls and runs -/

private theorem update_ne_none {held : Sessions} (known : held sessionId ≠ none) :
    Function.update held writtenId (some value) sessionId ≠ none := by
  by_cases same : sessionId = writtenId
  · subst same
    simp
  · rwa [Function.update_of_ne same]

/-- A Session only goes when retention removes it. -/
theorem change_remains (change : Change codec permit db held after held')
    (known : held sessionId ≠ none) :
    held' sessionId ≠ none ∨
      (permit.retires ∧ deleteSessionMetadata db sessionId = .ok after) := by
  cases change with
  | started | appended | advanced => exact .inl (update_ne_none known)
  | @retired removedId _ retiring removed =>
    by_cases same : sessionId = removedId
    · exact .inr ⟨retiring, same ▸ removed⟩
    · rw [Function.update_of_ne same]
      exact .inl known
  | leaseSet | probesMarked | stopOpened | stopClosed | referenced | cancelled | logged | swept
  | forgotten => exact .inl known

/-- Retention brings no Session. -/
private theorem change_known_before (retiring : permit.retires)
    (change : Change codec permit db held after held') (remains : held' sessionId ≠ none) :
    held sessionId ≠ none := by
  have written : ∀ {writtenId : SessionId} {value before : Session},
      held writtenId = some before →
      Function.update held writtenId (some value) sessionId ≠ none → held sessionId ≠ none := by
    intro writtenId value before known remains
    by_cases same : sessionId = writtenId
    · subst same
      simp [known]
    · rwa [Function.update_of_ne same] at remains
  cases change with
  | started admitting => exact absurd retiring admitting
  | appended known | advanced known => exact written known remains
  | @retired removedId =>
    by_cases same : sessionId = removedId
    · subst same
      simp at remains
    · rwa [Function.update_of_ne same] at remains
  | leaseSet | probesMarked | stopOpened | stopClosed | referenced | cancelled | logged | swept
  | forgotten => exact remains

/-- What stays of a Session and its records. -/
structure Stays (db after : Database) (session later : Session) : Prop where
  history : Keeps session later
  records : ∀ key record, db.idempotencyRecords.lookup key = some record →
    record.sessionId = some session.id.text →
    ∃ laterRecord, after.idempotencyRecords.lookup key = some laterRecord ∧
      LaterRecord record laterRecord

theorem Stays.refl (db : Database) (session : Session) : Stays db db session session where
  history := .refl session
  records := fun _ record recorded _ => ⟨record, recorded, .refl record⟩

theorem Stays.trans
    (first : Stays db middle session between) (second : Stays middle after between later) :
    Stays db after session later where
  history := first.history.trans second.history
  records := by
    intro key record recorded ofSession
    obtain ⟨next, found, laterOne⟩ := first.records key record recorded ofSession
    have nextSession : next.sessionId = some between.id.text := by
      rw [laterOne.same.session, first.history.same.id, ofSession]
    obtain ⟨final, there, laterTwo⟩ := second.records key next found nextSession
    exact ⟨final, there, laterOne.trans laterTwo⟩

theorem changes_stay (represents : Represents codec db held)
    (changes : Changes codec permit db held after held') (known : held sessionId = some session)
    (remains : held' sessionId = some later) : Stays db after session later := by
  induction changes generalizing later with
  | none =>
    rw [known, Option.some.injEq] at remains
    exact remains ▸ Stays.refl db session
  | @more middle between _ _ before change ih =>
    have there : between sessionId ≠ none := by
      by_cases retiring : permit.retires
      · exact change_known_before retiring change (by simp [remains])
      · clear ih remains change
        induction before with
        | none => simp [known]
        | more _ change ih =>
          exact (change_remains change ih).resolve_right fun other => retiring other.1
    obtain ⟨next, knownNext⟩ := Option.ne_none_iff_exists'.mp there
    have represents' := changes_represents before represents
    refine (ih knownNext).trans ⟨change_session represents' change knownNext remains, ?_⟩
    intro key record recorded ofSession
    obtain ⟨rfl, _⟩ := represents'.stored _ _ knownNext
    exact change_record change recorded ofSession (by simp [remains])

/-- A call after which a Session is still there. -/
def Retains (codec : TimeCodec) (sessionId : SessionId) (db : Database) (call : StoreCall) : Prop :=
  ∃ session, loadSession codec (serve codec db call).2 sessionId = .ok (some session)

section
variable (reachable : ReachableBy codec allowed db)
include reachable

/-- A run that only makes allowed calls from a reachable store stays reachable. -/
theorem later_reachable
    (later : Later codec alsoAllowed db after)
    (fits : ∀ db call, alsoAllowed db call → allowed db call) :
    ReachableBy codec allowed after := by
  obtain ⟨start, fresh, run⟩ := reachable
  refine ⟨start, fresh, run.trans (Relation.ReflTransGen.mono ?_ _ _ later)⟩
  rintro before next ⟨call, may, made⟩
  exact ⟨call, fits before call may, made⟩

theorem reachable_any : ReachableStore codec db := by
  obtain ⟨start, fresh, run⟩ := reachable
  exact later_reachable ⟨start, fresh, .refl⟩ run fun _ _ _ => trivial

theorem reachable_represents :
    ∃ held, Represents codec db held := by
  obtain ⟨held, represents, _⟩ := reachable_invariant (fun _ _ => True) (fun _ _ => trivial)
    (fun _ _ _ _ _ _ _ _ _ _ => trivial) reachable
  exact ⟨held, represents⟩

/-- Along a run that keeps the Session, everything a replay reads stays. -/
theorem later_stay
    (load : loadSession codec db sessionId = .ok (some session))
    (later : Later codec (fun db call => allowed db call ∧ Retains codec sessionId db call) db
      after) :
    ∃ final, loadSession codec after sessionId = .ok (some final) ∧
      Stays db after session final := by
  induction later with
  | refl => exact ⟨session, load, .refl db session⟩
  | tail before step ih =>
    obtain ⟨call, ⟨_, next, loadNext⟩, rfl⟩ := step
    obtain ⟨middle, loadMiddle, stays⟩ := ih
    obtain ⟨held, represents⟩ :=
      reachable_represents (later_reachable reachable before fun _ _ both => both.1)
    obtain ⟨held', changes⟩ := serve_changed represents call
    have known := loadNext
    rw [represents.load, Except.ok.injEq] at loadMiddle
    rw [(changes_represents changes represents).load, Except.ok.injEq] at known
    exact ⟨next, loadNext, stays.trans (changes_stay represents changes loadMiddle known)⟩

end

/-! ## Histories cut after a Turn -/

/-- Two Turns of one history under one id stand at one position. -/
theorem position_unique {i j : Nat}
    (formed : WellFormed session) (one : session.turns[i]? = some a)
    (two : session.turns[j]? = some b) (same : a.id = b.id) : i = j := by
  obtain ⟨inside, at_i⟩ := List.getElem?_eq_some_iff.mp one
  obtain ⟨inside', at_j⟩ := List.getElem?_eq_some_iff.mp two
  have ids := formed.distinct
  rw [List.nodup_iff_injective_get] at ids
  have equal := @ids ⟨i, by simpa using inside⟩ ⟨j, by simpa using inside'⟩
    (by simp [at_i, at_j, same])
  simpa using equal

/-- Everything before a Turn was over when the Turn started. -/
private theorem before_start (ordered : ∀ other ∈ turns, other.startedAt ≤ other.updatedAt)
    (inOrder : InOrder (turns ++ [turn])) :
    ∀ other ∈ turns, other.updatedAt ≤ turn.startedAt := by
  induction turns using List.reverseRecOn generalizing turn with
  | nil => simp
  | append_singleton earlier last ih =>
    obtain ⟨before, previous⟩ := inOrder_append.mp inOrder
    have lastEnds : last.updatedAt ≤ turn.startedAt := previous last (by simp)
    obtain ⟨ordered, own⟩ := forall_mem_concat.mp ordered
    exact forall_mem_concat.mpr ⟨fun other early =>
      (ih ordered before other early).trans (own.trans lastEnds), lastEnds⟩

/-- The beginning of a well-formed history up to a Turn is well-formed again,
with the revision its Turns add up to and the time of its last Turn. -/
theorem cut_wellFormed (formed : WellFormed session)
    (found : session.turns[index]? = some turn)
    (summed : revision.value = revisionSum (session.turns.take (index + 1))) :
    WellFormed (cutAfter session index revision turn.updatedAt) := by
  obtain ⟨inside, _⟩ := List.getElem?_eq_some_iff.mp found
  have split : session.turns.take (index + 1) = session.turns.take index ++ [turn] := by
    rw [List.take_add_one, found, Option.toList_some]
  have part : ∀ other ∈ session.turns.take index ++ [turn], other ∈ session.turns := by
    intro other member
    rw [← split] at member
    exact List.mem_of_mem_take member
  have inOrder : InOrder (session.turns.take index ++ [turn]) := by
    rw [← split]
    exact List.IsChain.take formed.inOrder (index + 1)
  have distinct : ((session.turns.take index ++ [turn]).map (·.id)).Nodup := by
    rw [← split, List.map_take]
    exact formed.distinct.sublist (List.take_sublist _ _)
  have ends := before_start (fun other member => (formed.coherent other (part other
    (by simp [member]))).ordered) inOrder
  have coherent : ∀ other ∈ session.turns, other.updatedAt ≤ turn.updatedAt →
      Coherent (cutAfter session index revision turn.updatedAt) other := by
    intro other member before
    have whole := formed.coherent other member
    exact ⟨whole.ordered, whole.afterCreation, before, whole.target, whole.revised, whole.quiet,
      whole.closed⟩
  have own := formed.coherent turn (part turn (by simp))
  refine wellFormed_concat split distinct ?_ ?_ (coherent turn (part turn (by simp)) (le_refl _))
    inOrder ?_ rfl ?_
  · intro other member
    exact coherent other (part other (by simp [member])) ((ends other member).trans own.ordered)
  · intro other member
    refine formed.settled other ?_
    rw [List.dropLast_eq_take]
    exact (List.take_subset_take_left session.turns (by omega)) member
  · rw [← split, List.head?_take, if_neg (by omega)]
    exact formed.first
  · rw [← revisionSum_append, ← split]
    exact summed.symm

/-- Up to a terminal Turn, a later Session is cut to the same. -/
theorem cut_keeps (keeps : Keeps session later) (found : session.turns[index]? = some turn)
    (terminal : turn.state.isTerminal = true) :
    cutAfter later index revision time = cutAfter session index revision time := by
  have turns := keeps.settled index turn found terminal
  obtain ⟨id, displayName, host, binding, createdAt⟩ := keeps.same
  simp [cutAfter, turns, id, displayName, host, binding, createdAt]

/-- A replay at a Turn finds the history up to the Turn, if the saved revision
is the sum of its Turns and the saved time that of its last Turn. -/
theorem replay_cut (represents : Represents codec db held) (known : held session.id = some session)
    (found : session.turns[index]? = some turn)
    (summed : revision.value = revisionSum (session.turns.take (index + 1)))
    (saves : Saves codec record revision turn.updatedAt) :
    ∃ revisionText updatedText, record.resultSessionStateRevision = some revisionText ∧
      record.resultSessionUpdatedAt = some updatedText ∧
      loadSessionAtOperationOutcome codec db session.id turn.id revisionText updatedText =
        .ok (cutAfter session index revision turn.updatedAt) := by
  obtain ⟨revisionSaved, updatedText, updatedSaved, parsed⟩ := saves
  have stored := (represents.stored _ _ known).2
  refine ⟨_, updatedText, revisionSaved, updatedSaved, ?_⟩
  obtain ⟨row, rowFound, displayName, _, createdAt, _⟩ := stored.row
  obtain ⟨refs, refsFound, host, binding⟩ := stored.refs
  have restored : Session.restore (cutAfter session index revision turn.updatedAt).snapshot =
      .ok (cutAfter session index revision turn.updatedAt) :=
    restore_ok_iff.mpr ⟨rfl, cut_wellFormed stored.formed found summed⟩
  unfold loadSessionAtOperationOutcome loadSessionAt Database.rawSessionRow
  simp only [rowFound, refsFound, Option.bind_some, Option.pure_def,
    Option.map_some, Option.elim_some, rawTurnRows_boundary stored found,
    parseStateRevision_format revision, host, binding, storedReference_text, createdAt, parsed,
    displayName, bind, Except.bind]
  simp only [Session.snapshot, cutAfter] at restored
  rw [restored]
  rfl

end Satelle.StoreHistory
