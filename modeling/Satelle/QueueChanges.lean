import Satelle.Host.Queue

/-! What a transaction can do to the turn queue, said once. A `Step` is one
statement that writes: it inserts a request, or it moves requests that wait.
Every committed transaction is a sequence of steps, and a request that no longer
waits is not touched again. -/
namespace Satelle.QueueChanges
open Satelle.Core Lib Host

/-- What a statement makes of a request that waits. -/
inductive Move (row : QueueRow) : QueueRow → Prop where
  | advanced : Move row { row with stateRevision := row.stateRevision + 1 }
  | withdrawn (reason : status = "cancelled" ∨ status = "expired") :
      Move row { row with status := status, stateRevision := row.stateRevision + 1 }
  | admitted (sessionId : SessionId) (turnId : TurnId) :
      Move row { row with
        status := "admitted"
        sessionId := some sessionId.text
        turnId := some turnId.text
        failureCode := none
        failureMessage := none
        stateRevision := row.stateRevision + 1 }
  | failed (failure : QueueFailure) (untouched : turnId = none ∨ turnId = row.turnId) :
      Move row { row with
        status := "validation_failed"
        turnId := turnId
        failureCode := some failure.code
        failureMessage := some failure.message
        stateRevision := row.stateRevision + 1 }

/-- The request asks to be served before it expires. -/
def WellTimed : QueueCall → Prop
  | .enqueue record _ => record.enqueuedAt < record.expiresAt
  | _ => True

/-- The key under which a request is enqueued once. -/
def SameKey (record : NewQueueRecord) (row : QueueRow) : Prop :=
  row.principalRef = record.principalRef ∧ row.operation = record.operation.asStr ∧
    row.idempotencyKey = record.idempotencyKey

/-- One statement. -/
inductive Step (queue after : QueueTable) : Prop where
  | inserted (record : NewQueueRecord) (enqueuedAt expiresAt : String)
      (timed : record.enqueuedAt < record.expiresAt)
      (enqueued : Rfc3339.format record.enqueuedAt = some enqueuedAt)
      (expires : Rfc3339.format record.expiresAt = some expiresAt)
      (steered : record.operation = .steer → record.sessionId.isSome)
      (unused : ∀ row ∈ queue.rows, ¬SameKey record row)
      (room : (queuedOf queue record.leaseKey).length + 1 < u16Size)
      (rows : after.rows = queue.rows ++ [newQueueRow record enqueuedAt expiresAt])
  | updated (selected : QueueRow → Bool) (change : QueueRow → QueueRow)
      (moves : ∀ row ∈ queue.rows, selected row = true →
        row.isQueued = true ∧ Move row (change row))
      (rows : after.rows = queue.rows.map (patch selected change))

abbrev Steps : QueueTable → QueueTable → Prop := Relation.ReflTransGen Step

/-- One statement that updates. -/
def Update (queue after : QueueTable) : Prop :=
  ∃ selected change, (∀ row ∈ queue.rows, selected row = true →
    row.isQueued = true ∧ Move row (change row)) ∧
    after.rows = queue.rows.map (patch selected change)

abbrev Updates : QueueTable → QueueTable → Prop := Relation.ReflTransGen Update

theorem Update.step (update : Update queue after) : Step queue after := by
  obtain ⟨selected, change, moves, rows⟩ := update
  exact .updated selected change moves rows

theorem updates_steps (updates : Updates queue after) : Steps queue after :=
  Relation.ReflTransGen.mono (fun _ _ update => update.step) _ _ updates

/-! ## Transactions -/

theorem updateQueued_ok (ran : updateQueued queue selected change keeps = .ok after) :
    after = queue.updateWhere (·.waits selected)
      (fun row => { change row with stateRevision := row.stateRevision + 1 }) keeps := by
  unfold updateQueued at ran
  simp only [except_bind_ok, ensure_ok] at ran
  obtain ⟨_, _, made⟩ := ran
  cases made
  rfl

theorem updateQueued_update (ran : updateQueued queue selected change keeps = .ok after)
    (moves : ∀ row, Move row { change row with stateRevision := row.stateRevision + 1 }) :
    Update queue after := by
  rw [updateQueued_ok ran]
  refine ⟨_, _, ?_, rfl⟩
  intro row _ waits
  exact ⟨(Bool.and_eq_true_iff.mp waits).1, moves row⟩

theorem loadIdempotent_none (found : loadIdempotentQueueRecord queue record.principalRef
    record.operation record.idempotencyKey = .ok none) :
    ∀ row ∈ queue.rows, ¬SameKey record row := by
  unfold loadIdempotentQueueRecord at found
  split at found
  · rename_i nothing
    intro row member same
    have differs := List.find?_eq_none.mp nothing row member
    simp [same.1, same.2.1, same.2.2] at differs
  · simp only [except_bind_ok] at found
    obtain ⟨_, _, made⟩ := found
    cases made

/-- Log entries were appended, and nothing else. -/
def Logged : Database → Database → Prop :=
  Relation.ReflTransGen fun db after => ∃ record, insertSafeLog rfc3339 db record = .ok after

theorem logQueue_logged (ran : logQueue db event severity clock records = .ok after) :
    Logged db after := by
  unfold logQueue at ran
  induction records generalizing db with
  | nil =>
    cases ran
    exact .refl
  | cons record rest ih =>
    simp only [List.foldlM_cons, except_bind_ok] at ran
    obtain ⟨middle, ⟨entry, _, inserted⟩, others⟩ := ran
    exact .head ⟨entry, inserted⟩ (ih others)

/-- The three ways an enqueue commits. -/
inductive Enqueued (state : QueueStore) (record : NewQueueRecord) (maxDepth : Fin u16Size) :
    QueueEnqueueOutcome → QueueStore → Prop where
  | full : Enqueued state record maxDepth .full state
  | replayed (known : loadIdempotentQueueRecord state.queue record.principalRef record.operation
        record.idempotencyKey = .ok (some (queueRequestId, record.requestDigest, record.payloadSha256)))
      (read : loadQueueRecord state.queue record.principalRef queueRequestId = .ok (some stored)) :
      Enqueued state record maxDepth (.replayed stored) state
  | inserted (enqueuedAt expiresAt : String)
      (enqueued : Rfc3339.format record.enqueuedAt = some enqueuedAt)
      (expires : Rfc3339.format record.expiresAt = some expiresAt)
      (steered : record.operation = .steer → record.sessionId.isSome)
      (unused : ∀ row ∈ state.queue.rows, ¬SameKey record row)
      (room : (queuedOf state.queue record.leaseKey).length < maxDepth)
      (rows : after.queue.rows = state.queue.rows ++ [newQueueRow record enqueuedAt expiresAt])
      (read : loadQueueRecord after.queue record.principalRef record.queueRequestId =
        .ok (some stored)) :
      Enqueued state record maxDepth (.inserted stored) after

theorem enqueue_ok (ran : enqueueQueueRequest state record maxDepth = .ok (outcome, after)) :
    Enqueued state record maxDepth outcome after ∧ Logged state.store after.store := by
  unfold enqueueQueueRequest at ran
  rw [except_bind_ok] at ran
  obtain ⟨existing, found, ran⟩ := ran
  cases existing with
  | some existing =>
    obtain ⟨queueRequestId, requestDigest, payloadSha256⟩ := existing
    dsimp only at ran
    simp only [except_bind_ok, ensure_ok, orFail_ok] at ran
    obtain ⟨_, ⟨rfl, rfl⟩, _, read, stored, rfl, made⟩ := ran
    cases made
    exact ⟨.replayed found read, .refl⟩
  | none =>
    dsimp only at ran
    unfold enqueueNew at ran
    split at ran
    · cases ran
      exact ⟨.full, .refl⟩
    · rename_i room
      simp only [except_bind_ok, ensure_ok, formatTime, orFail_ok] at ran
      obtain ⟨_, _, enqueuedAt, enqueued, expiresAt, expires, queue, inserted, _, read, stored, rfl,
        _, logged, made⟩ := ran
      cases made
      simp only [insertQueueRow, except_bind_ok, ensure_ok, orFail_ok] at inserted
      obtain ⟨_, _, _, steered, _, _, _, _, inserted⟩ := inserted
      refine ⟨.inserted enqueuedAt expiresAt enqueued expires ?_ (loadIdempotent_none found)
        (not_le.mp room) (Table.insert_eq_some.mp inserted).2 read, logQueue_logged logged⟩
      intro isSteer
      rcases steered with other | known
      · exact absurd (show record.operation.asStr = "steer" by rw [isSteer]; rfl) other
      · simpa [newQueueRow] using known

theorem enqueue_steps (timed : record.enqueuedAt < record.expiresAt)
    (ran : enqueueQueueRequest state record maxDepth = .ok (outcome, after)) :
    Steps state.queue after.queue := by
  cases (enqueue_ok ran).1 with
  | full | replayed => exact .refl
  | inserted enqueuedAt expiresAt enqueued expires steered unused room rows =>
    refine .single (.inserted record enqueuedAt expiresAt timed enqueued expires steered unused ?_
      rows)
    have bound := maxDepth.isLt
    omega

theorem terminal_move (update : QueueTerminalUpdate) (row : QueueRow) :
    Move row { update.change row with stateRevision := row.stateRevision + 1 } := by
  cases update with
  | admitted sessionId turnId => exact .admitted sessionId turnId
  | validationFailed failure => exact .failed failure (.inl rfl)

theorem advanceRecord_update (ran : advanceRecord queue row = .ok (record, after)) :
    Update queue after := by
  unfold advanceRecord at ran
  simp only [except_bind_ok] at ran
  obtain ⟨_, _, _, updated, _, _, made⟩ := ran
  cases made
  exact updateQueued_update updated fun _ => .advanced

theorem advanceRecords_updates (ran : advanceRecords queue rows = .ok (records, after)) :
    Updates queue after := by
  induction rows generalizing queue records with
  | nil =>
    cases ran
    exact .refl
  | cons row rest ih =>
    unfold advanceRecords at ran
    simp only [except_bind_ok] at ran
    obtain ⟨⟨record, middle⟩, first, ⟨others, final⟩, ran, made⟩ := ran
    cases made
    exact .head (advanceRecord_update first) (ih ran)

/-- Requests are withdrawn, whichever they are. -/
inductive Withdrew (state : QueueStore) (withdrawn : List (StoredQueueRecord × Nat))
    (after : QueueStore) : Prop where
  | mk {keeps : ∀ row, (change row).queueRequestId = row.queueRequestId}
      (updated : updateQueued state.queue selected change keeps = .ok after.queue)
      (old : oldPositions state.queue selected = .ok positions)
      (records : withdrawnRecords after.queue positions = .ok withdrawn)
      (moves : ∀ row, Move row { change row with stateRevision := row.stateRevision + 1 })
      (leaves : ∀ row, (change row).isQueued = false)

/-- What a transaction has done to the queue. -/
inductive Done (state : QueueStore) : QueueCall → QueueReply → QueueStore → Prop where
  | enqueued (enqueued : Enqueued state record maxDepth outcome after) :
      Done state (.enqueue record maxDepth) (.enqueued outcome) after
  | expired (withdrew : Withdrew state withdrawn after) :
      Done state (.expire observedAt) (.withdrawn withdrawn) after
  | credentialFailed {failure : QueueFailure} (withdrew : Withdrew state withdrawn after) :
      Done state (.credentialFailed tokenId credentialRevision failure clock)
        (.withdrawn withdrawn) after
  | unknown : Done state (.cancel principalRef queueRequestId now) (.cancelled none) state
  | kept (read : loadQueueRecord state.queue principalRef queueRequestId = .ok (some record)) :
      Done state (.cancel principalRef queueRequestId now) (.cancelled (some ⟨record, none⟩)) state
  | cancelled (before : loadQueueRecord state.queue principalRef queueRequestId = .ok (some record))
      (placed : record.status.position = some position)
      (updated : updateQueued state.queue (fun row => row.queueRequestId = queueRequestId.text)
        (fun row => { row with status := "cancelled" }) (fun _ => rfl) = .ok after.queue)
      (read : loadQueueRecord after.queue principalRef queueRequestId = .ok (some stored)) :
      Done state (.cancel principalRef queueRequestId now)
        (.cancelled (some ⟨stored, some position⟩)) after
  | admitted (updated : updateQueued state.queue
        (fun row => row.queueRequestId = queueRequestId.text)
        (QueueTerminalUpdate.admitted sessionId turnId).change
        (QueueTerminalUpdate.change_queueRequestId _) = .ok after.queue) :
      Done state (.admitted queueRequestId sessionId turnId now) (.updated changed) after
  | failed {failure : QueueFailure} (updated : updateQueued state.queue
        (fun row => row.queueRequestId = queueRequestId.text)
        (QueueTerminalUpdate.validationFailed failure).change
        (QueueTerminalUpdate.change_queueRequestId _) = .ok after.queue) :
      Done state (.failed queueRequestId failure now) (.updated changed) after
  | advanced (ran : advanceRecords state.queue
        ((fifoOf state.queue leaseKey).drop (position - 1)) = .ok (records, after.queue)) :
      Done state (.advance leaseKey position clock) (.advanced records) after

/-- What a transaction that commits has done, to the queue and to the store. -/
structure Served (state : QueueStore) (call : QueueCall) (reply : QueueReply) (after : QueueStore) :
    Prop where
  done : Done state call reply after
  logged : Logged state.store after.store

theorem updateTerminal_ok
    (ran : updateTerminal state queueRequestId update now = .ok (changed, after)) :
    updateQueued state.queue (fun row => row.queueRequestId = queueRequestId.text) update.change
      update.change_queueRequestId = .ok after.queue ∧ Logged state.store after.store := by
  unfold updateTerminal at ran
  rw [except_bind_ok] at ran
  obtain ⟨queue, updated, ran⟩ := ran
  split at ran
  · simp only [except_bind_ok] at ran
    obtain ⟨_, _, _, logged, made⟩ := ran
    cases made
    exact ⟨updated, logQueue_logged logged⟩
  · cases ran
    exact ⟨updated, .refl⟩

theorem served_of (ran : serveQueue state call = (.ok reply, after)) :
    Served state call reply after := by
  cases call with
  | enqueue record maxDepth =>
    obtain ⟨_, done, rfl⟩ := transact_ok.mp ran
    obtain ⟨enqueued, logged⟩ := enqueue_ok done
    exact ⟨.enqueued enqueued, logged⟩
  | expire observedAt =>
    obtain ⟨_, done, rfl⟩ := transact_ok.mp ran
    unfold expireQueueRequests at done
    simp only [except_bind_ok] at done
    obtain ⟨_, _, _, old, _, updated, _, records, _, logged, made⟩ := done
    cases made
    exact ⟨.expired ⟨updated, old, records, fun _ => .withdrawn (.inr rfl), fun _ => rfl⟩,
      logQueue_logged logged⟩
  | credentialFailed tokenId credentialRevision failure clock =>
    obtain ⟨_, done, rfl⟩ := transact_ok.mp ran
    unfold failQueueRequestsForCredential at done
    simp only [except_bind_ok] at done
    obtain ⟨_, _, _, old, _, updated, _, records, _, logged, made⟩ := done
    cases made
    exact ⟨.credentialFailed
      ⟨updated, old, records, fun _ => .failed failure (.inr rfl), fun _ => rfl⟩,
      logQueue_logged logged⟩
  | cancel principalRef queueRequestId now =>
    obtain ⟨_, done, rfl⟩ := transact_ok.mp ran
    unfold cancelQueueRequest at done
    rw [except_bind_ok] at done
    obtain ⟨found, before, done⟩ := done
    cases found with
    | none =>
      cases done
      exact ⟨.unknown, .refl⟩
    | some record =>
      dsimp only at done
      split at done
      · simp only [except_bind_ok, orFail_ok] at done
        obtain ⟨_, placed, _, updated, _, read, _, rfl, _, logged, made⟩ := done
        cases made
        exact ⟨.cancelled before placed updated read, logQueue_logged logged⟩
      · cases done
        exact ⟨.kept before, .refl⟩
  | admitted queueRequestId sessionId turnId now =>
    obtain ⟨_, done, rfl⟩ := transact_ok.mp ran
    obtain ⟨updated, logged⟩ := updateTerminal_ok done
    exact ⟨.admitted updated, logged⟩
  | failed queueRequestId failure now =>
    obtain ⟨_, done, rfl⟩ := transact_ok.mp ran
    obtain ⟨updated, logged⟩ := updateTerminal_ok done
    exact ⟨.failed updated, logged⟩
  | advance leaseKey position clock =>
    obtain ⟨_, done, rfl⟩ := transact_ok.mp ran
    unfold advanceQueuePositions at done
    simp only [except_bind_ok] at done
    obtain ⟨⟨records, queue⟩, advanced, _, logged, made⟩ := done
    cases made
    exact ⟨.advanced advanced, logQueue_logged logged⟩

/-- A call that fails leaves the queue and the store as they were. -/
theorem serveQueue_error (failed : (serveQueue state call).1 = .error e) :
    (serveQueue state call).2 = state := by
  cases call <;> exact transact_error failed

/-- Every call but an enqueue is a sequence of updates. -/
theorem serveQueue_updates (others : ∀ record maxDepth, call ≠ .enqueue record maxDepth)
    (ran : serveQueue state call = (.ok reply, after)) : Updates state.queue after.queue := by
  cases (served_of ran).done with
  | enqueued => exact absurd rfl (others _ _)
  | expired withdrew | credentialFailed withdrew =>
    obtain ⟨updated, _, _, moves⟩ := withdrew
    exact .single (updateQueued_update updated moves)
  | unknown | kept => exact .refl
  | cancelled _ _ updated => exact .single (updateQueued_update updated fun _ => .withdrawn (.inl rfl))
  | admitted updated | failed updated =>
    exact .single (updateQueued_update updated (terminal_move _))
  | advanced ran => exact advanceRecords_updates ran

/-- Every call is a sequence of steps. -/
theorem serveQueue_steps (timed : WellTimed call) :
    Steps state.queue (serveQueue state call).2.queue := by
  cases outcome : (serveQueue state call).1 with
  | error e =>
    rw [serveQueue_error outcome]
  | ok reply =>
    have ran : serveQueue state call = (.ok reply, (serveQueue state call).2) :=
      Prod.ext outcome rfl
    cases call with
    | enqueue record maxDepth =>
      obtain ⟨_, done, _⟩ := transact_ok.mp ran
      exact enqueue_steps timed done
    | expire | cancel | admitted | failed | credentialFailed | advance =>
      exact updates_steps (serveQueue_updates (by simp) ran)

/-! ## What becomes of a request -/

/-- A row of a later table, compared with the row of the same request before. -/
structure Follows (row later : QueueRow) : Prop where
  kept : later = { row with
    status := later.status
    sessionId := later.sessionId
    turnId := later.turnId
    failureCode := later.failureCode
    failureMessage := later.failureMessage
    stateRevision := later.stateRevision }
  revision : row.stateRevision ≤ later.stateRevision
  counted : later.status ≠ row.status → row.stateRevision < later.stateRevision
  settled : row.isQueued = false → later = row

theorem Follows.refl (row : QueueRow) : Follows row row :=
  ⟨rfl, le_refl _, fun changed => absurd rfl changed, fun _ => rfl⟩

theorem Follows.trans (first : Follows row middle) (second : Follows middle later) :
    Follows row later where
  kept := by
    have kept := second.kept
    rw [first.kept] at kept
    exact kept
  revision := le_trans first.revision second.revision
  counted := by
    intro changed
    by_cases moved : middle.status = row.status
    · exact lt_of_le_of_lt first.revision (second.counted fun same => changed (same.trans moved))
    · exact lt_of_lt_of_le (first.counted moved) second.revision
  settled := by
    intro done
    have same := first.settled done
    rw [← same] at done
    rw [second.settled done, same]

theorem Move.follows (move : Move row later) (waits : row.isQueued = true) : Follows row later := by
  have unsettled {P : Prop} (done : row.isQueued = false) : P := by
    rw [waits] at done
    cases done
  cases move with
  | advanced | withdrawn | admitted | failed =>
    exact ⟨rfl, Nat.le_succ _, fun _ => Nat.lt_succ_self _, unsettled⟩

/-- What an update does with one row. -/
theorem patch_follows (moves : selected row = true → row.isQueued = true ∧ Move row (change row)) :
    Follows row (patch selected change row) := by
  by_cases hit : selected row = true
  · obtain ⟨waits, move⟩ := moves hit
    rw [patch, if_pos hit]
    exact move.follows waits
  · rw [patch, if_neg hit]
    exact .refl row

theorem step_follows (step : Step queue after) :
    ∀ row ∈ queue.rows, ∃ later ∈ after.rows, Follows row later := by
  intro row member
  cases step with
  | inserted _ _ _ _ _ _ _ _ _ rows =>
    exact ⟨row, by rw [rows]; exact List.mem_append_left _ member, .refl row⟩
  | updated selected change moves rows =>
    exact ⟨_, by rw [rows]; exact List.mem_map_of_mem member, patch_follows (moves row member)⟩

theorem steps_follow (steps : Steps queue after) :
    ∀ row ∈ queue.rows, ∃ later ∈ after.rows, Follows row later := by
  induction steps with
  | refl => exact fun row member => ⟨row, member, .refl row⟩
  | tail _ step ih =>
    intro row member
    obtain ⟨middle, there, before⟩ := ih row member
    obtain ⟨later, last, after⟩ := step_follows step middle there
    exact ⟨later, last, before.trans after⟩

/-- The rows after updates are those of before. -/
theorem updates_origin (updates : Updates queue after) :
    ∀ row ∈ after.rows, ∃ before ∈ queue.rows, Follows before row := by
  induction updates with
  | refl => exact fun row member => ⟨row, member, .refl row⟩
  | tail _ update ih =>
    intro row member
    obtain ⟨selected, change, moves, rows⟩ := update
    rw [rows] at member
    obtain ⟨middle, there, rfl⟩ := List.mem_map.mp member
    obtain ⟨before, first, follows⟩ := ih middle there
    exact ⟨before, first, follows.trans (patch_follows (moves middle there))⟩

theorem Follows.queueRequestId (follows : Follows row later) :
    later.queueRequestId = row.queueRequestId := by
  rw [follows.kept]

theorem Follows.leaseKey (follows : Follows row later) : later.leaseKey = row.leaseKey := by
  rw [follows.kept]

theorem Follows.waits (follows : Follows row later) (waits : later.isQueued = true) :
    row.isQueued = true := by
  by_contra done
  rw [follows.settled (Bool.eq_false_of_not_eq_true done)] at waits
  exact done waits

end Satelle.QueueChanges
