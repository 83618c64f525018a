import Satelle.StoreChanges

/-! Every change keeps the rows of the store in step with the Sessions it
holds: the rows a change does not write are read as before, and the rows it
writes are read as the Session it was meant to leave. -/
namespace Satelle.StoreRepresentation
open Satelle.Core Lib Host SessionInvariants SessionLifecycle StoreRows StoreStatements StoreChanges

/-- The rows of one Session are read the same in both stores. -/
structure Frame (db after : Database) (sessionId : SessionId) : Prop where
  session : after.sessions.lookup sessionId.text = db.sessions.lookup sessionId.text
  refs : (after.sessionPrivateRefs.lookup sessionId.text).map hostAndBinding =
    (db.sessionPrivateRefs.lookup sessionId.text).map hostAndBinding
  turns : after.turnRows sessionId = db.turnRows sessionId
  tokens : ∀ row ∈ db.turnRows sessionId,
    (after.turnPrivateRefs.lookup row.turnId).map (·.requestToken) =
      (db.turnPrivateRefs.lookup row.turnId).map (·.requestToken)
  policies : ∀ row ∈ db.turnRows sessionId,
    after.turnPolicies.lookup row.turnId = db.turnPolicies.lookup row.turnId

/-- Statements on other tables do not touch any Session. -/
theorem Frame.of_tables (sessions : after.sessions = db.sessions)
    (refs : after.sessionPrivateRefs = db.sessionPrivateRefs) (turns : after.turns = db.turns)
    (turnRefs : after.turnPrivateRefs = db.turnPrivateRefs)
    (policies : after.turnPolicies = db.turnPolicies) (sessionId : SessionId) :
    Frame db after sessionId where
  session := by rw [sessions]
  refs := by rw [refs]
  turns := by simp [Database.turnRows, turns]
  tokens := by simp [turnRefs]
  policies := by simp [policies]

private theorem turnStored_frame (stored : TurnStored codec db row turn)
    (tokens : (after.turnPrivateRefs.lookup row.turnId).map (·.requestToken) =
      (db.turnPrivateRefs.lookup row.turnId).map (·.requestToken))
    (policies : after.turnPolicies.lookup row.turnId = db.turnPolicies.lookup row.turnId) :
    TurnStored codec after row turn where
  columns := stored.columns
  token := by
    obtain ⟨refs, found, valid⟩ := stored.token
    rw [found, Option.map_some, Option.map_eq_some_iff] at tokens
    obtain ⟨kept, there, same⟩ := tokens
    exact ⟨kept, there, same ▸ valid⟩
  policy := by
    rw [policies]
    exact stored.policy

theorem Frame.stored {session : Session} (frame : Frame db after session.id)
    (stored : SessionStored codec db session) :
    SessionStored codec after session where
  row := by
    rw [frame.session]
    exact stored.row
  refs := by
    obtain ⟨refs, found, host, binding⟩ := stored.refs
    have same := frame.refs
    rw [found, Option.map_some, Option.map_eq_some_iff] at same
    obtain ⟨kept, there, equal⟩ := same
    obtain ⟨sameHost, sameBinding⟩ := Prod.mk.inj equal
    exact ⟨kept, there, sameHost.trans host, sameBinding.trans binding⟩
  turns := by
    rw [frame.turns]
    refine ((List.forall₂_and_left _ _).mpr ⟨fun row member => member, stored.turns⟩).imp ?_
    intro row turn own
    exact turnStored_frame own.2 (frame.tokens row own.1) (frame.policies row own.1)
  ordinals := by
    rw [frame.turns]
    exact stored.ordinals
  formed := stored.formed

/-- Only the Session that was written has to be looked at again. -/
theorem represents_update (represents : Represents codec db held)
    (others : ∀ other, other ≠ sessionId → Frame db after other)
    (own : ∀ session, changed = some session →
      session.id = sessionId ∧ SessionStored codec after session)
    (gone : changed = none →
      after.sessions.lookup sessionId.text = none ∧ after.turnRows sessionId = [])
    (owned : ∀ row ∈ after.turns.rows, ∃ sessionId : SessionId, row.sessionId = sessionId.text) :
    Represents codec after (Function.update held sessionId changed) where
  stored := by
    intro other session found
    by_cases same : other = sessionId
    · subst same
      rw [Function.update_self] at found
      exact own session found
    · rw [Function.update_of_ne same] at found
      obtain ⟨rfl, stored⟩ := represents.stored other session found
      exact ⟨rfl, (others _ same).stored stored⟩
  absent := by
    intro other missing
    by_cases same : other = sessionId
    · subst same
      rw [Function.update_self] at missing
      exact gone missing
    · rw [Function.update_of_ne same] at missing
      obtain ⟨noRow, noTurns⟩ := represents.absent other missing
      exact ⟨(others _ same).session.trans noRow, (others _ same).turns.trans noTurns⟩
  owned := owned

theorem represents_same (represents : Represents codec db held)
    (frames : ∀ sessionId, Frame db after sessionId) (turns : after.turns = db.turns) :
    Represents codec after held where
  stored := by
    intro sessionId session found
    obtain ⟨rfl, stored⟩ := represents.stored sessionId session found
    exact ⟨rfl, (frames _).stored stored⟩
  absent := by
    intro sessionId missing
    obtain ⟨noRow, noTurns⟩ := represents.absent sessionId missing
    exact ⟨(frames _).session.trans noRow, (frames _).turns.trans noTurns⟩
  owned := by
    rw [turns]
    exact represents.owned

/-! ## Inserted rows -/

private theorem rows_insert {turns after : Table TurnRow (·.turnId)}
    (inserted : turns.insert row = some after) (sessionId : SessionId) :
    after.rows.filter (fun other => other.sessionId = sessionId.text) =
      turns.rows.filter (fun other => other.sessionId = sessionId.text) ++
        if row.sessionId = sessionId.text then [row] else [] := by
  obtain ⟨_, rows⟩ := Table.insert_eq_some.mp inserted
  rw [rows, List.filter_append]
  by_cases same : row.sessionId = sessionId.text <;> simp [same]

/-- A new Turn's rows do not touch the Turns that are there. -/
private theorem turnAdded_others
    (added : TurnAdded codec db sessionId ordinal turn turns turnRefs policies)
    (member : row ∈ db.turns.rows) :
    turnRefs.lookup row.turnId = db.turnPrivateRefs.lookup row.turnId ∧
      policies.lookup row.turnId = db.turnPolicies.lookup row.turnId := by
  obtain ⟨inserted, insertedTurn, _, _, columns⟩ := added.turns
  obtain ⟨refs, insertedRefs, refsKey, _⟩ := added.privateRefs
  have fresh := (Table.insert_eq_some.mp insertedTurn).1
  have ne : turn.id.text ≠ row.turnId := by
    intro same
    exact fresh (columns.turnId.trans same ▸ List.mem_map_of_mem member)
  rw [Table.lookup_insert insertedRefs, Table.lookup_insert added.policies]
  exact ⟨if_neg (refsKey ▸ ne), if_neg ne⟩

private theorem turnAdded_stored
    (added : TurnAdded codec db sessionId ordinal turn turns after.turnPrivateRefs after.turnPolicies)
    (columns : TurnColumns codec row turn) : TurnStored codec after row turn where
  columns := columns
  token := by
    obtain ⟨refs, inserted, key, valid, _⟩ := added.privateRefs
    refine ⟨refs, ?_, valid⟩
    rw [Table.lookup_insert inserted, columns.turnId]
    exact if_pos key
  policy := by
    refine ⟨_, ?_, parseExecutionPolicy_row turn.id turn.executionPolicy⟩
    rw [Table.lookup_insert added.policies, columns.turnId]
    exact if_pos rfl

private theorem turnAdded_owned
    (added : TurnAdded codec db sessionId ordinal turn turns turnRefs policies)
    (owned : ∀ row ∈ db.turns.rows, ∃ sessionId : SessionId, row.sessionId = sessionId.text) :
    ∀ row ∈ turns.rows, ∃ sessionId : SessionId, row.sessionId = sessionId.text := by
  obtain ⟨inserted, insertedTurn, ofSession, _⟩ := added.turns
  rw [(Table.insert_eq_some.mp insertedTurn).2]
  exact forall_mem_concat.mpr ⟨owned, sessionId, ofSession⟩

/-- The Sessions a new Turn does not belong to keep their rows. -/
private theorem turnAdded_frame {after : Database}
    (added : TurnAdded codec db sessionId ordinal turn after.turns after.turnPrivateRefs
      after.turnPolicies)
    (other : otherId ≠ sessionId)
    (session : after.sessions.lookup otherId.text = db.sessions.lookup otherId.text)
    (refs : (after.sessionPrivateRefs.lookup otherId.text).map hostAndBinding =
      (db.sessionPrivateRefs.lookup otherId.text).map hostAndBinding) : Frame db after otherId where
  session := session
  refs := refs
  turns := by
    obtain ⟨inserted, insertedTurn, ofSession, _⟩ := added.turns
    unfold Database.turnRows
    rw [rows_insert insertedTurn, ofSession, if_neg, List.append_nil]
    intro same
    exact other (PublicId.text_inj.mp same).symm
  tokens := by
    intro row member
    rw [(turnAdded_others added (List.mem_of_mem_filter member)).1]
  policies := fun row member => (turnAdded_others added (List.mem_of_mem_filter member)).2

/-- The row of a Session that is held would be in the way. -/
theorem sessionAdded_free (represents : Represents codec db held)
    (added : SessionAdded codec db session sessions privateRefs) : held session.id = none := by
  obtain ⟨row, inserted, key, _⟩ := added.sessions
  cases found : held session.id with
  | none => rfl
  | some other =>
    obtain ⟨same, stored⟩ := represents.stored _ _ found
    obtain ⟨old, there, _⟩ := stored.row
    obtain ⟨member, oldKey⟩ := Table.lookup_eq_some.mp there
    have taken : row.sessionId ∈ db.sessions.rows.map (·.sessionId) := by
      rw [key, ← same, ← oldKey]
      exact List.mem_map_of_mem member
    exact absurd taken (Table.insert_eq_some.mp inserted).1

private theorem started_represents (represents : Represents codec db held)
    (formed : WellFormed session) (only : session.turns = [turn])
    (sessionAdded : SessionAdded codec db session after.sessions after.sessionPrivateRefs)
    (turnAdded : TurnAdded codec db session.id 0 turn after.turns after.turnPrivateRefs
      after.turnPolicies) :
    Represents codec after (Function.update held session.id (some session)) := by
  obtain ⟨row, inserted, key, columns⟩ := sessionAdded.sessions
  obtain ⟨refs, insertedRefs, refsKey, host, binding, _⟩ := sessionAdded.privateRefs
  obtain ⟨turnRow, insertedTurn, ofSession, ordinal, turnColumns⟩ := turnAdded.turns
  have free := sessionAdded_free represents sessionAdded
  have rows : after.turnRows session.id = [turnRow] := by
    have before := (represents.absent _ free).2
    unfold Database.turnRows at before ⊢
    rw [rows_insert insertedTurn, before, ofSession]
    simp
  refine represents_update represents ?_ ?_ (by simp) ?_
  · intro other ne
    have text : session.id.text ≠ other.text := fun same => ne (PublicId.text_inj.mp same).symm
    refine turnAdded_frame turnAdded ne ?_ ?_
    · rw [Table.lookup_insert inserted, key, if_neg text]
    · rw [Table.lookup_insert insertedRefs, refsKey, if_neg text]
  · rintro _ ⟨⟩
    refine ⟨rfl, ⟨⟨row, ?_, columns⟩, ⟨refs, ?_, host, binding⟩, ?_, ?_, formed⟩⟩
    · rw [Table.lookup_insert inserted, if_pos key]
    · rw [Table.lookup_insert insertedRefs, if_pos refsKey]
    · rw [rows, only]
      exact .cons (turnAdded_stored turnAdded turnColumns) .nil
    · rw [rows, only]
      simp [ordinal]
  · exact turnAdded_owned turnAdded represents.owned

/-- The Session row after its compare-and-swap, and the other rows. -/
private theorem sessionMoved_lookup (moved : SessionMoved codec db session expected sessions) :
    (∀ key, key ≠ session.id.text → sessions.lookup key = db.sessions.lookup key) ∧
    ∃ row updatedAt, db.sessions.lookup session.id.text = some row ∧
      parseTime codec updatedAt = .ok session.updatedAt ∧
      sessions.lookup session.id.text = some { row with
        sessionStateRevision := formatRevision session.revision
        updatedAt := updatedAt } := by
  obtain ⟨updatedAt, parsed, updated⟩ := moved
  obtain ⟨row, found, _, made⟩ := Table.updateOne_made updated fun row hit =>
    of_decide_eq_true (Bool.and_eq_true_iff.mp hit).1
  exact ⟨fun key ne => (made key).trans (if_neg ne), row, updatedAt, found, parsed,
    (made _).trans (if_pos rfl)⟩

private theorem sessionMoved_row (stored : SessionStored codec db before)
    (same : SameIdentity before session)
    (moved : SessionMoved codec db session expected sessions) :
    ∃ row, sessions.lookup session.id.text = some row ∧ SessionColumns codec row session := by
  obtain ⟨_, row, updatedAt, found, parsed, written⟩ := sessionMoved_lookup moved
  obtain ⟨old, there, columns⟩ := stored.row
  rw [same.id, there, Option.some.injEq] at found
  subst found
  exact ⟨_, written, columns.displayName.trans same.displayName.symm,
    parseStateRevision_format _, same.createdAt ▸ columns.createdAt, parsed⟩

private theorem same_refs {after : Database} (stored : SessionStored codec db before)
    (same : SameIdentity before session)
    (kept : after.sessionPrivateRefs = db.sessionPrivateRefs) :
    ∃ refs, after.sessionPrivateRefs.lookup session.id.text = some refs ∧
      refs.hostIdentityRef = session.hostIdentity.text ∧
      refs.desktopBindingRef = session.desktopBinding.text := by
  rw [kept, same.id, same.host, same.binding]
  exact stored.refs

private theorem appended_represents {after : Database} (represents : Represents codec db held)
    (known : held before.id = some before) (formed : WellFormed session)
    (appends : Appends before session turn)
    (moved : SessionMoved codec db session expected after.sessions)
    (turnAdded : TurnAdded codec db before.id before.turns.length turn after.turns
      after.turnPrivateRefs after.turnPolicies)
    (isPrivateRefs : after.sessionPrivateRefs = db.sessionPrivateRefs) :
    Represents codec after (Function.update held before.id (some session)) := by
  obtain ⟨_, stored⟩ := represents.stored _ _ known
  obtain ⟨turnRow, insertedTurn, ofSession, ordinal, turnColumns⟩ := turnAdded.turns
  have rows : after.turnRows session.id = db.turnRows before.id ++ [turnRow] := by
    unfold Database.turnRows
    rw [rows_insert insertedTurn, ofSession, appends.same.id]
    simp
  refine represents_update represents ?_ ?_ (by simp) ?_
  · intro other ne
    refine turnAdded_frame turnAdded ne ?_ (by rw [isPrivateRefs])
    refine (sessionMoved_lookup moved).1 _ ?_
    rw [appends.same.id]
    exact fun same => ne (PublicId.text_inj.mp same)
  · rintro _ ⟨⟩
    refine ⟨appends.same.id, ⟨?_, same_refs stored appends.same isPrivateRefs, ?_, ?_, formed⟩⟩
    · exact sessionMoved_row stored appends.same moved
    · rw [rows, appends.shape]
      have placed := (List.forall₂_and_left _ _).mpr ⟨fun row member => member, stored.turns⟩
      refine List.rel_append (placed.imp ?_)
        (.cons (turnAdded_stored turnAdded turnColumns) .nil)
      intro row other own
      obtain ⟨sameRefs, samePolicies⟩ := turnAdded_others turnAdded (List.mem_of_mem_filter own.1)
      exact turnStored_frame own.2 (by rw [sameRefs]) samePolicies
    · rw [rows, appends.shape, List.map_append, stored.ordinals, List.length_append,
        List.length_singleton, List.range_succ]
      simp [ordinal]
  · exact turnAdded_owned turnAdded represents.owned

/-! ## Moved rows -/

/-- An update of a Turn row: the rows it selects, what it keeps and what it
writes. -/
private structure TurnUpdate (codec : TimeCodec) (sessionId : SessionId) (turn : Turn)
    (hit : TurnRow → Bool) (move : TurnRow → TurnRow) : Prop where
  selects : ∀ row, hit row = true → row.turnId = turn.id.text ∧ row.sessionId = sessionId.text
  keeps : ∀ row, (move row).turnId = row.turnId ∧ (move row).sessionId = row.sessionId ∧
    (move row).ordinal = row.ordinal
  writes : ∀ row last, TurnColumns codec row last → turn.id = last.id →
    turn.startedAt = last.startedAt → TurnColumns codec (move row) turn

private theorem turnMoved_update (moved : TurnMoved codec db sessionId turn expected turns) :
    ∃ hit move, TurnUpdate codec sessionId turn hit move ∧ db.turns.rows.countP hit = 1 ∧
      turns.rows = db.turns.rows.map (patch hit move) := by
  obtain ⟨updatedAt, terminalAt, updated, terminal, changed⟩ := moved
  obtain ⟨one, rfl⟩ := Table.updateOne_eq_some.mp changed
  refine ⟨_, _, ?_, one, rfl⟩
  refine ⟨?_, fun _ => ⟨rfl, rfl, rfl⟩, ?_⟩
  · intro row hit
    simp only [Bool.and_eq_true, decide_eq_true_eq] at hit
    exact hit.1
  · intro row last columns sameId sameStart
    exact ⟨columns.turnId.trans (congrArg PublicId.text sameId.symm), parseStateRevision_format _,
      rfl, sameStart ▸ columns.startedAt, updated, terminal, parseSafeSummary_token _⟩

private theorem turnUpdate_patch (update : TurnUpdate codec sessionId turn hit move)
    (row : TurnRow) : (patch hit move row).turnId = row.turnId ∧
      (patch hit move row).sessionId = row.sessionId ∧
      (patch hit move row).ordinal = row.ordinal := by
  by_cases found : hit row = true
  · simpa [patch, found] using update.keeps row
  · simp [patch, found]

private theorem turnUpdate_rows {db after : Database}
    (update : TurnUpdate codec sessionId turn hit move)
    (rows : after.turns.rows = db.turns.rows.map (patch hit move)) (other : SessionId) :
    after.turnRows other = (db.turnRows other).map (patch hit move) := by
  unfold Database.turnRows
  rw [rows]
  refine Table.filter_patch fun row => ?_
  rw [(update.keeps row).2.1]

/-- The last row of a stored history, apart from the others. -/
private theorem stored_concat (stored : SessionStored codec db session)
    (shape : session.turns = earlier ++ [last]) :
    ∃ rows row, db.turnRows session.id = rows ++ [row] ∧
      List.Forall₂ (TurnStored codec db) rows earlier ∧ TurnStored codec db row last := by
  have turns := stored.turns
  rw [shape] at turns
  have heads := List.forall₂_take_append _ _ _ turns
  have tail := List.forall₂_drop_append _ _ _ turns
  obtain ⟨row, rest, own, none, split⟩ := List.forall₂_cons_right_iff.mp tail
  cases List.forall₂_nil_right_iff.mp none
  refine ⟨_, row, ?_, heads, own⟩
  rw [← split, List.take_append_drop]

/-- The update hits the row of the last Turn and no other. -/
private theorem turnUpdate_stored (stored : SessionStored codec db before)
    (advances : Advances before session last turn)
    (update : TurnUpdate codec before.id turn hit move) (one : db.turns.rows.countP hit = 1)
    (isRefs : after.turnPrivateRefs = db.turnPrivateRefs)
    (isPolicies : after.turnPolicies = db.turnPolicies) :
    List.Forall₂ (TurnStored codec after) ((db.turnRows before.id).map (patch hit move))
      session.turns := by
  obtain ⟨earlier, shape, moved⟩ := advances.shape
  obtain ⟨rows, row, split, heads, own⟩ := stored_concat stored shape
  have distinct := stored.formed.distinct
  rw [shape, nodup_map_concat] at distinct
  rw [split, moved, List.map_append, List.map_singleton]
  refine List.rel_append ?_ (.cons ?_ .nil)
  · rw [List.forall₂_map_left_iff]
    refine List.Forall₂.flip
      (((List.forall₂_and_left _ _).mpr ⟨fun turn member => member, heads.flip⟩).imp ?_)
    rintro settled other ⟨member, there⟩
    replace there : TurnStored codec db other settled := there
    have missed : hit other = false := by
      by_contra found
      have same := (update.selects other (by simpa using found)).1
      rw [there.columns.turnId, advances.id] at same
      exact distinct.2 (List.mem_map.mpr ⟨settled, member, PublicId.text_inj.mp same⟩)
    change TurnStored codec after (patch hit move other) settled
    rw [patch, if_neg (by simp [missed])]
    exact turnStored_frame there (by rw [isRefs]) (by rw [isPolicies])
  · obtain ⟨target, inTable, found, _⟩ := Table.exists_of_countP_one one
    have member : row ∈ db.turnRows before.id := by simp [split]
    have same : target = row := by
      refine Table.row_unique inTable (List.mem_of_mem_filter member) ?_
      rw [(update.selects target found).1, own.columns.turnId, advances.id]
    rw [patch, if_pos (same ▸ found)]
    have framed : TurnStored codec after row last :=
      turnStored_frame own (by rw [isRefs]) (by rw [isPolicies])
    have kept := (update.keeps row).1
    exact ⟨update.writes row last own.columns advances.id advances.startedAt,
      kept ▸ framed.token, kept ▸ advances.policy ▸ framed.policy⟩

section
variable (represents : Represents codec db held)
include represents

private theorem advanced_represents {after : Database}
    (known : held before.id = some before) (formed : WellFormed session)
    (advances : Advances before session last turn)
    (moved : SessionMoved codec db session expected after.sessions)
    (turnMoved : TurnMoved codec db before.id turn expectedTurn after.turns)
    (isPrivateRefs : after.sessionPrivateRefs = db.sessionPrivateRefs)
    (isRefs : after.turnPrivateRefs = db.turnPrivateRefs)
    (isPolicies : after.turnPolicies = db.turnPolicies) :
    Represents codec after (Function.update held before.id (some session)) := by
  obtain ⟨_, stored⟩ := represents.stored _ _ known
  obtain ⟨hit, move, update, one, rows⟩ := turnMoved_update turnMoved
  refine represents_update represents ?_ ?_ (by simp) ?_
  · intro other ne
    have text : other.text ≠ before.id.text := fun same => ne (PublicId.text_inj.mp same)
    refine ⟨?_, by rw [isPrivateRefs], ?_, by simp [isRefs], by simp [isPolicies]⟩
    · exact (sessionMoved_lookup moved).1 _ (advances.same.id ▸ text)
    · rw [turnUpdate_rows update rows]
      refine (List.map_congr_left ?_).trans (List.map_id _)
      intro row member
      have ofOther : row.sessionId = other.text := by simpa using List.of_mem_filter member
      refine if_neg fun found => text ?_
      rw [← ofOther, (update.selects row found).2]
  · rintro _ ⟨⟩
    refine ⟨advances.same.id, ⟨?_, same_refs stored advances.same isPrivateRefs, ?_, ?_, formed⟩⟩
    · exact sessionMoved_row stored advances.same moved
    · rw [advances.same.id, turnUpdate_rows update rows]
      exact turnUpdate_stored stored advances update one isRefs isPolicies
    · obtain ⟨earlier, shape, changed⟩ := advances.shape
      have ordinals := stored.ordinals
      rw [shape] at ordinals
      rw [advances.same.id, turnUpdate_rows update rows, List.map_map, changed]
      simpa [Function.comp_def, turnUpdate_patch update] using ordinals
  · rw [rows, List.forall_mem_map]
    intro old there
    rw [(turnUpdate_patch update old).2.1]
    exact represents.owned old there

/-! ## Removed rows -/

private theorem retired_represents
    (removed : deleteSessionMetadata db sessionId = .ok after) :
    Represents codec after (Function.update held sessionId none) := by
  unfold deleteSessionMetadata at removed
  simp only [except_bind_ok, orFail_ok, ensure_ok] at removed
  obtain ⟨sessions, deleted, _, _, _, _, made⟩ := removed
  obtain ⟨one, rfl⟩ := Table.deleteOne_eq_some.mp deleted
  cases made
  refine represents_update represents ?_ (by simp) ?_ ?_
  · intro other ne
    have text : sessionId.text ≠ other.text := fun same => ne (PublicId.text_inj.mp same).symm
    have foreign : ∀ row ∈ db.turnRows other, row.turnId ∉ (db.turnRows sessionId).map (·.turnId) := by
      intro row member gone
      obtain ⟨own, there, same⟩ := List.mem_map.mp gone
      obtain ⟨ownInTable, ofSession⟩ := List.mem_filter.mp there
      obtain ⟨inTable, ofOther⟩ := List.mem_filter.mp member
      cases Table.row_unique ownInTable inTable same
      simp only [decide_eq_true_eq] at ofSession ofOther
      exact text (ofSession.symm.trans ofOther)
    refine ⟨?_, ?_, ?_, ?_, ?_⟩
    · exact Table.lookup_deleteWhere_spared fun row key => by simp [key, text.symm]
    · rw [Table.lookup_deleteWhere_spared fun row key => by simp [key, text.symm]]
    · unfold Database.turnRows
      rw [Table.rows_deleteWhere, List.filter_filter]
      refine List.filter_congr fun row _ => ?_
      by_cases ofOther : row.sessionId = other.text <;> simp [ofOther, text.symm]
    · intro row member
      rw [Table.lookup_deleteWhere_spared fun refs key => by simpa [key] using foreign row member]
    · intro row member
      exact Table.lookup_deleteWhere_spared fun policy key => by
        simpa [key] using foreign row member
  · intro _
    refine ⟨?_, ?_⟩
    · have keyed := Table.lookup_deleteOne deleted (k := sessionId.text) (by simp +contextual)
      exact keyed.choose_spec.2.2
    · unfold Database.turnRows
      rw [Table.rows_deleteWhere, List.filter_filter, List.filter_eq_nil_iff]
      simp
  · intro row member
    exact represents.owned row (List.mem_of_mem_filter member)

/-! ## Turns of different Sessions -/

/-- A Turn id belongs to one Session: it is the key of one row. -/
theorem turn_unique (known : held session.id = some session)
    (otherKnown : held other.id = some other) (member : turn ∈ session.turns)
    (otherMember : otherTurn ∈ other.turns) (same : turn.id = otherTurn.id) :
    session = other ∧ turn = otherTurn := by
  have stored := (represents.stored _ _ known).2
  obtain ⟨row, there, rowStored⟩ := stored.row_of_turn member
  obtain ⟨otherRow, otherThere, otherStored⟩ :=
    (represents.stored _ _ otherKnown).2.row_of_turn otherMember
  obtain ⟨inTable, ofSession⟩ := List.mem_filter.mp there
  obtain ⟨otherInTable, ofOther⟩ := List.mem_filter.mp otherThere
  have sameRow : row = otherRow := by
    refine Table.row_unique inTable otherInTable ?_
    rw [rowStored.columns.turnId, otherStored.columns.turnId, same]
  subst sameRow
  simp only [decide_eq_true_eq] at ofSession ofOther
  have sameId : session.id = other.id := PublicId.text_inj.mp (ofSession.symm.trans ofOther)
  rw [sameId, otherKnown] at known
  cases known
  exact ⟨rfl, List.inj_on_of_nodup_map stored.formed.distinct member otherMember same⟩

/-- The id of a Turn that was added was no id of a held Turn. -/
theorem turnAdded_fresh
    (added : TurnAdded codec db sessionId ordinal turn turns turnRefs policies)
    (known : held other.id = some other) (member : otherTurn ∈ other.turns) :
    otherTurn.id ≠ turn.id := by
  obtain ⟨inserted, insertedTurn, _, _, columns⟩ := added.turns
  have fresh := (Table.insert_eq_some.mp insertedTurn).1
  obtain ⟨row, there, stored⟩ := (represents.stored _ _ known).2.row_of_turn member
  intro same
  apply fresh
  rw [columns.turnId, ← same, ← stored.columns.turnId]
  exact List.mem_map_of_mem (List.mem_of_mem_filter there)

/-- A Turn row is the row of a Turn of a held Session. -/
theorem turn_of_table (member : row ∈ db.turns.rows) :
    ∃ session turn, held session.id = some session ∧ turn ∈ session.turns ∧
      TurnStored codec db row turn := by
  obtain ⟨sessionId, ofSession⟩ := represents.owned row member
  have there : row ∈ db.turnRows sessionId := List.mem_filter.mpr ⟨member, by simp [ofSession]⟩
  cases found : held sessionId with
  | none =>
    rw [(represents.absent sessionId found).2] at there
    cases there
  | some session =>
    obtain ⟨rfl, stored⟩ := represents.stored sessionId session found
    obtain ⟨turn, inHistory, rowStored⟩ := stored.turn_of_row there
    exact ⟨session, turn, found, inHistory, rowStored⟩

end

/-! ## Every change -/

/-- A change keeps what the store holds in step with the Sessions. -/
theorem change_represents (change : Change codec permit db held after held')
    (represents : Represents codec db held) : Represents codec after held' := by
  cases change with
  | started _ formed only _ _ _ _ sessionAdded turnAdded =>
    exact started_represents represents formed only sessionAdded turnAdded
  | appended known formed appends _ _ _ sessionMoved turnAdded =>
    exact appended_represents represents known formed appends sessionMoved turnAdded rfl
  | advanced known formed advances sessionMoved turnMoved =>
    exact advanced_represents represents known formed advances sessionMoved turnMoved rfl rfl rfl
  | referenced sameSessions sameTurns =>
    refine represents_same represents (fun sessionId => ?_) rfl
    exact ⟨rfl, sameSessions _, rfl, fun row _ => sameTurns _, fun _ _ => rfl⟩
  | retired _ removed => exact retired_represents represents removed
  | leaseSet | probesMarked | stopOpened | stopClosed | cancelled | logged | swept | forgotten =>
    exact represents_same represents (Frame.of_tables rfl rfl rfl rfl rfl) rfl

theorem changes_represents (changes : Changes codec permit db held after held')
    (represents : Represents codec db held) : Represents codec after held' := by
  induction changes with
  | none => exact represents
  | more _ change ih => exact change_represents change ih

end Satelle.StoreRepresentation
