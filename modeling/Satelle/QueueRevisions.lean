import Satelle.QueueMoves

/-! What the revision of a queued request identifies: its status at all times, and
its position once every move of its desktop has been told. Before that two
observations with one revision may show two positions. -/
namespace Satelle.QueueRevisions
open Satelle.Core Lib Host QueueChanges QueueEntries QueueHistory QueueRuns QueueMoves StoreRefinement

variable {Reply : Type} {sha256 : PayloadDigest}

/-! ## Steps of the Host -/

variable {host after : QueueHost Reply}

/-- A transaction of a service call, with the news it owes. -/
theorem transaction_shift (served : ∀ reply after, serveQueue host.state call = (.ok reply, after) →
      Shift host.queue after.queue host.owed (host.owed ++ movedUp reply)) :
    Shift host.queue (host.transaction call).queue host.owed (host.transaction call).owed := by
  rcases transaction_cases host call with same | ⟨reply, after, ran, made⟩
  · rw [same]
    exact shift_same (List.Subset.refl _)
  · rw [made]
    exact served reply after ran

/-- The request comes after every other one that waits at its desktop. -/
def Latest (queue : QueueTable) (leaseKey : String) (queueRequestId : QueueRequestId)
    (now : OffsetDateTime) : Prop :=
  ∀ row ∈ queuedOf queue leaseKey, ∃ instant ∈ Rfc3339.parse row.enqueuedAt,
    instant < now ∨ instant = now ∧ row.queueRequestId < queueRequestId.text

instance : Decidable (Latest queue leaseKey queueRequestId now) :=
  inferInstanceAs (Decidable (∀ row ∈ _, ∃ instant ∈ _, _))

/-- Requests are enqueued in the order of their times. -/
def Orderly (host : QueueHost Reply) : QueueAction Reply → Prop
  | .enqueue payload queueRequestId now _ =>
    ∀ leaseKey ∈ (queueLeaseKey host.admissions.store payload.desktopBinding.text).toOption,
      Latest host.queue leaseKey queueRequestId now
  | .admissions _ | .expire _ | .cancel _ _ _ | .credentialFailed _ _ _ _ | .announce _ _ _
  | .files _ | .worker _ | .restart => True

instance (host : QueueHost Reply) : (action : QueueAction Reply) → Decidable (Orderly host action)
  | .enqueue _ _ _ _ => inferInstanceAs (Decidable (∀ leaseKey ∈ _, Latest _ _ _ _))
  | .admissions _ | .expire _ | .cancel _ _ _ | .credentialFailed _ _ _ _ | .announce _ _ _
  | .files _ | .worker _ | .restart => inferInstanceAs (Decidable True)

theorem latest_last (sound : Sound queue)
    (latest : Latest queue record.leaseKey record.queueRequestId record.enqueuedAt)
    (enqueued : Rfc3339.format record.enqueuedAt = some enqueuedAt) :
    ∀ row ∈ queuedOf queue record.leaseKey,
      row.fifoKey < (newQueueRow record enqueuedAt expiresAt).fifoKey := by
  intro row queued
  obtain ⟨entry, encodes⟩ := sound.entries row (mem_queuedOf.mp queued).1
  obtain ⟨instant, parsed, order⟩ := latest row queued
  rw [Rfc3339.parse_format _ _ encodes.enqueuedAt] at parsed
  obtain rfl := Option.some.inj parsed
  rw [QueueRow.fifoKey, QueueRow.fifoKey, Prod.Lex.toLex_lt_toLex]
  change Rfc3339.trimZ row.enqueuedAt < Rfc3339.trimZ enqueuedAt ∨
    Rfc3339.trimZ row.enqueuedAt = Rfc3339.trimZ enqueuedAt ∧
      row.queueRequestId < record.queueRequestId.text
  rw [Rfc3339.trimZ_lt_iff encodes.enqueuedAt enqueued,
    Rfc3339.trimZ_inj encodes.enqueuedAt enqueued]
  exact order

/-- Every step, as long as requests are enqueued in order. -/
theorem perform_shift (running : Running host)
    (performed : host.perform sha256 action = some after) (orderly : Orderly host action) :
    Shift host.queue after.queue host.owed after.owed := by
  have same {other : QueueHost Reply} (queue : other.queue = host.queue)
      (owed : other.owed = host.owed) : Shift host.queue other.queue host.owed other.owed := by
    rw [queue, owed]
    exact shift_same (List.Subset.refl _)
  cases action with
  | admissions action =>
    obtain ⟨_, _, rfl⟩ := Option.map_eq_some_iff.mp performed
    exact same rfl rfl
  | enqueue payload queueRequestId now config =>
    rcases enqueue_cases performed with rfl | ⟨_, leaseKey, stored, state, lease, ran, rfl⟩
    · exact same rfl rfl
    · change Shift host.queue state.queue host.owed (host.owed ++ [])
      rw [List.append_nil]
      cases (enqueue_ok ran).1 with
      | inserted enqueuedAt expiresAt enqueued _ _ _ _ rows _ =>
        have latest := orderly leaseKey (by rw [lease]; rfl)
        exact inserted_shift rows (latest_last running.sound latest enqueued)
  | expire observedAt =>
    cases performed
    refine transaction_shift fun reply after ran => ?_
    cases (served_of ran).done with
    | expired withdrew => exact withdrew_shift running.sound withdrew
  | cancel principalRef queueRequestId now =>
    cases performed
    exact transaction_shift fun reply after ran => cancel_shift running.sound ran
  | credentialFailed tokenId credentialRevision failure clock =>
    cases performed
    refine transaction_shift fun reply after ran => ?_
    cases (served_of ran).done with
    | credentialFailed withdrew => exact withdrew_shift running.sound withdrew
  | announce leaseKey position clock =>
    rcases announce_cases performed with rfl | ⟨_, _, ran, rfl⟩
    · exact same rfl rfl
    · cases (served_of ran).done with
      | advanced done =>
        obtain ⟨count, bumps, told⟩ := advance_bumps done
        exact bumps.shift told
  | files files =>
    cases performed
    exact same rfl rfl
  | worker step =>
    rcases work_queue performed with ⟨queue, owed⟩ | ⟨record, update, now, _, _, isPc, _, ran, rfl⟩
    · exact same queue owed
    · obtain ⟨row, read⟩ := running.held record (by rw [isPc]; rfl)
      exact terminal_shift read ran
  | restart =>
    cases performed
    exact same rfl rfl

/-! ## Reports -/

/-- The records that a transaction writes to the log and that are published. -/
def reported : QueueReply → List StoredQueueRecord
  | .enqueued (.inserted record) | .enqueued (.replayed record) => [record]
  | .withdrawn records => records.map (·.1)
  | .cancelled (some cancellation) => [cancellation.record]
  | .advanced records => records
  | .enqueued .full | .cancelled none | .updated _ => []

/-- A record that was decoded is the one that is read. -/
theorem decoded_read (sound : Sound queue) (member : row ∈ queue.rows)
    (decoded : decodeQueueRecord queue row = .ok record) :
    loadQueueRecordUnowned queue record.status.queueRequestId = .ok (some record) := by
  obtain ⟨entry, encodes, isEntry⟩ := decode_sound sound member
  rw [isEntry] at decoded
  cases decoded
  have found : queue.lookup entry.queueRequestId.text = some row :=
    Table.lookup_eq_some.mpr ⟨member, encodes.queueRequestId⟩
  unfold loadQueueRecordUnowned
  rw [show (entry.record queue row).status.queueRequestId = entry.queueRequestId from rfl, found]
  dsimp only
  rw [isEntry]
  rfl

/-- The record of a request that is not counted again stays what it is. -/
theorem bumps_decoded {after} (bumps : Bumps queue after count) (sound : Sound queue) (sound' : Sound after)
    (member : row ∈ queue.rows) (spared : count row = 0)
    (decoded : decodeQueueRecord queue row = .ok record) :
    row ∈ after.rows ∧ decodeQueueRecord after row = .ok record := by
  have unchanged : bumped count row = row := by rw [bumped, spared]; rfl
  have there : row ∈ after.rows := unchanged ▸ bumps.member member
  have placed : queuePosition after row = queuePosition queue row := by
    rw [← bumps.placed row, unchanged]
  refine ⟨there, ?_⟩
  obtain ⟨entry, encodes, isEntry⟩ := decode_sound sound member
  rw [isEntry] at decoded
  cases decoded
  rw [encodes.decode fun _ => position_small sound' row]
  simp only [Entry.record, shownPosition, placed]

theorem advanceRecords_read {after} (sound : Sound queue) (distinct : (rows.map (·.queueRequestId)).Nodup)
    (ran : advanceRecords queue rows = .ok (records, after)) (member : record ∈ records) :
    loadQueueRecordUnowned after record.status.queueRequestId = .ok (some record) := by
  induction rows generalizing queue records with
  | nil =>
    cases ran
    cases member
  | cons row rest ih =>
    unfold advanceRecords at ran
    simp only [except_bind_ok] at ran
    obtain ⟨⟨own, middle⟩, first, ⟨others, final⟩, ran, made⟩ := ran
    cases made
    obtain ⟨fresh, distinct⟩ := List.nodup_cons.mp distinct
    have sound' := step_sound sound (advanceRecord_update first).step
    rcases List.mem_cons.mp member with rfl | later
    · unfold advanceRecord at first
      simp only [except_bind_ok] at first
      obtain ⟨id, selected, _, _, _, required, made⟩ := first
      cases made
      obtain ⟨stored, there, named, decoded⟩ := requireQueueRecord_ok required
      have text := PublicId.parse_eq_some.mp (orFail_ok.mp selected)
      have alone : (rest.map (·.queueRequestId)).count stored.queueRequestId = 0 := by
        rw [named, text]
        exact List.count_eq_zero.mpr fresh
      have final := steps_sound sound' (updates_steps (advanceRecords_updates ran))
      obtain ⟨inside, isRecord⟩ := bumps_decoded (advanceRecords_bumps ran) sound' final there
        (by simp [alone]) decoded
      exact decoded_read final inside isRecord
    · exact ih sound' distinct ran later

/-- What a transaction reports is what is read after it. -/
theorem reported_read {state after : QueueStore} (sound : Sound state.queue)
    (timed : WellTimed call) (ran : serveQueue state call = (.ok reply, after))
    (member : record ∈ reported reply) :
    loadQueueRecordUnowned after.queue record.status.queueRequestId = .ok (some record) := by
  have sound' := steps_sound sound (serve_steps call timed ran)
  have loaded {principalRef queueRequestId}
      (read : loadQueueRecord after.queue principalRef queueRequestId = .ok (some record)) :
      loadQueueRecordUnowned after.queue record.status.queueRequestId = .ok (some record) := by
    obtain ⟨row, inside, _, decoded⟩ := loadQueueRecord_ok read
    exact decoded_read sound' inside decoded
  cases (served_of ran).done with
  | enqueued done =>
    cases done with
    | full => cases member
    | replayed _ read | inserted _ _ _ _ _ _ _ _ read =>
      obtain rfl := List.mem_singleton.mp member
      exact loaded read
  | expired withdrew | credentialFailed withdrew =>
    obtain ⟨_, _, records, _⟩ := withdrew
    obtain ⟨⟨_, position⟩, there, rfl⟩ := List.mem_map.mp member
    obtain ⟨_, _, read⟩ := (mapM_mem records).2 _ there
    simp only [except_bind_ok] at read
    obtain ⟨_, required, made⟩ := read
    cases made
    obtain ⟨row, inside, _, decoded⟩ := requireQueueRecord_ok required
    exact decoded_read sound' inside decoded
  | unknown | admitted | failed => cases member
  | kept read | cancelled _ _ _ read =>
    obtain rfl := List.mem_singleton.mp member
    exact loaded read
  | @advanced leaseKey _ _ _ _ advanced =>
    refine advanceRecords_read sound ?_ advanced member
    rw [List.map_drop]
    exact (fifoOf_ids state.queue leaseKey).sublist (List.drop_sublist _ _)

/-! ## Runs -/

/-- A run in which requests are enqueued in the order of their times. -/
def OrderlyRun (sha256 : PayloadDigest) : QueueHost Reply → QueueHost Reply → Prop :=
  Relation.ReflTransGen fun host after =>
    ∃ action, host.perform sha256 action = some after ∧ Orderly host action

theorem OrderlyRun.run (run : OrderlyRun sha256 host after) : QueueRun sha256 host after :=
  Relation.ReflTransGen.mono (fun _ _ ⟨action, performed, _⟩ => ⟨action, performed⟩) _ _ run

/-- A request with the revision it had is where it was, or the news of its move is
owed. -/
def Tracks (first second : QueueHost Reply) : Prop :=
  ∀ row ∈ first.queue.rows, ∀ later ∈ second.queue.rows, later.queueRequestId = row.queueRequestId →
    row.isQueued = true → later.stateRevision = row.stateRevision →
    queuePosition second.queue later = queuePosition first.queue row ∨
      ∃ position ≤ queuePosition second.queue later, (row.leaseKey, position) ∈ second.owed

theorem run_tracks (running : Running first)
    (run : OrderlyRun sha256 first second) : Tracks first second := by
  induction run with
  | refl =>
    intro row member later there named _ _
    obtain rfl := first.queue.row_unique there member named
    exact .inl rfl
  | tail before step ih =>
    rename_i middle after
    obtain ⟨action, performed, orderly⟩ := step
    intro row member later there named waits same
    -- the row in between has the same revision, and so the same status
    have steps := run_steps (OrderlyRun.run before)
    obtain ⟨between, inside, follows⟩ := steps_follow steps row member
    obtain ⟨next, isNext, follows'⟩ := steps_follow (perform_steps performed) between inside
    obtain rfl : next = later := by
      refine after.queue.row_unique isNext there ?_
      rw [named, follows'.queueRequestId, follows.queueRequestId]
    have low := follows.revision
    have high := follows'.revision
    have revision : between.stateRevision = row.stateRevision := by omega
    have status : between.status = row.status := by
      by_contra changed
      have counted := follows.counted changed
      omega
    have queued : between.isQueued = true := by
      rw [QueueRow.isQueued, status]
      exact waits
    have shifted := perform_shift (run_running running (OrderlyRun.run before)) performed orderly
      between inside next there follows'.queueRequestId queued (same.trans revision.symm)
    rw [follows.leaseKey] at shifted
    rcases shifted with ⟨placed, kept⟩ | owed
    · rw [placed]
      rcases ih row member between inside follows.queueRequestId waits revision with
        unmoved | ⟨position, small, told⟩
      · exact .inl unmoved
      · exact .inr ⟨position, small, kept position told small⟩
    · exact .inr owed

/-- Nothing is owed to the requests of a desktop. -/
def Told (host : QueueHost Reply) (leaseKey : String) : Prop :=
  ∀ position, (leaseKey, position) ∉ host.owed

theorem unowned_row (sound : Sound queue)
    (read : loadQueueRecordUnowned queue queueRequestId = .ok (some record)) :
    ∃ row ∈ queue.rows, row.queueRequestId = queueRequestId.text ∧
      record.leaseKey = row.leaseKey ∧ record.status.stateRevision = row.stateRevision ∧
      record.status.status.asStr = row.status ∧
      record.status.position = shownPosition queue row := by
  obtain ⟨row, member, named, isRecord⟩ := loadUnowned_ok read
  obtain ⟨entry, encodes, decoded⟩ := decode_sound sound member
  rw [decoded] at isRecord
  cases isRecord
  exact ⟨row, member, named, rfl, encodes.revision.symm, encodes.status.symm, rfl⟩

/-- The revision of a request identifies its status at all times. It identifies its
position too, as long as requests are enqueued in the order of their times and
every move of the desktop has been told by the time of the later observation. What
a transaction writes to the log and publishes is what is read after it. -/
theorem queue_revision_identifies (start : Database) (first : QueueHost Reply)
    (queueRequestId : QueueRequestId) (before : QueueRun sha256 (.new start) first)
    (seen : loadQueueRecordUnowned first.queue queueRequestId = .ok (some record)) :
    (∀ second again, QueueRun sha256 first second →
      loadQueueRecordUnowned second.queue queueRequestId = .ok (some again) →
      again.status.stateRevision = record.status.stateRevision →
      again.status.status = record.status.status) ∧
    (∀ second again, OrderlyRun sha256 first second → Told second record.leaseKey →
      loadQueueRecordUnowned second.queue queueRequestId = .ok (some again) →
      again.status.stateRevision = record.status.stateRevision →
      again.status.position = record.status.position) ∧
    (∀ call reply after, WellTimed call → serveQueue first.state call = (.ok reply, after) →
      ∀ told ∈ reported reply,
        loadQueueRecordUnowned after.queue told.status.queueRequestId = .ok (some told)) := by
  have running := run_running (new_running start) before
  obtain ⟨row, member, named, lease, revision, status, position⟩ := unowned_row running.sound seen
  -- the row of the later observation
  have follow {second again} (run : QueueRun sha256 first second)
      (reseen : loadQueueRecordUnowned second.queue queueRequestId = .ok (some again))
      (same : again.status.stateRevision = record.status.stateRevision) :
      ∃ later ∈ second.queue.rows, later.queueRequestId = row.queueRequestId ∧
        later.stateRevision = row.stateRevision ∧ later.status = row.status ∧
        again.status.status.asStr = later.status ∧
        again.status.position = shownPosition second.queue later := by
    obtain ⟨later, there, named', _, revision', status', position'⟩ :=
      unowned_row (run_running running run).sound reseen
    obtain ⟨next, isNext, follows⟩ := steps_follow (run_steps run) row member
    obtain rfl := second.queue.row_unique isNext there
      (follows.queueRequestId.trans (named.trans named'.symm))
    have equal : next.stateRevision = row.stateRevision := by
      rw [← revision', same, revision]
    refine ⟨next, there, follows.queueRequestId, equal, ?_, status', position'⟩
    by_contra changed
    have counted := follows.counted changed
    omega
  refine ⟨?_, ?_, ?_⟩
  · intro second again run reseen same
    obtain ⟨later, _, _, _, unchanged, status', _⟩ := follow run reseen same
    have parsed := parseQueueStatus_asStr again.status.status
    rw [status', unchanged, ← status, parseQueueStatus_asStr] at parsed
    exact (Except.ok.inj parsed).symm
  · intro second again run told reseen same
    obtain ⟨later, there, named', equal, unchanged, _, position'⟩ := follow run.run reseen same
    rw [position, position', shownPosition, shownPosition]
    have queued : later.isQueued = row.isQueued := by
      rw [QueueRow.isQueued, unchanged]
      rfl
    rw [queued]
    split
    · rename_i waits
      rcases run_tracks running run row member later there named' waits equal with
        unmoved | ⟨owed, _, isOwed⟩
      · rw [unmoved]
      · exact absurd (lease ▸ isOwed) (told owed)
    · rfl
  · intro call reply after timed ran told member
    exact reported_read running.sound timed ran member

/-! Two requests of one desktop. -/

def samplePayload (key : String) : QueuedTurnPayload where
  operation := .run
  explicitQueue := true
  sessionId := none
  desktopBinding := sampleDesktop
  principal := ⟨"token", "principal-test", 1⟩
  idempotencyKey := key

/-- Payloads with different keys have different digests. -/
def sampleSha256 : PayloadDigest := fun payload => payload.idempotencyKey

def sampleEnqueue (queueRequestId : QueueRequestId) (key : String) (second : Int) :
    QueueAction Unit :=
  .enqueue (samplePayload key) queueRequestId (seconds second) {}

/-- What is read of a request: its position and its revision. -/
def shown (host : QueueHost Reply) (queueRequestId : QueueRequestId) : Option (Option Nat × Nat) :=
  (loadQueueRecordUnowned host.queue queueRequestId).toOption.join.map fun record =>
    (record.status.position, record.status.stateRevision)

/-- The actions one after the other. -/
def performAll (sha256 : PayloadDigest) (host : QueueHost Reply) :
    List (QueueAction Reply) → Option (QueueHost Reply)
  | [] => some host
  | action :: rest => (host.perform sha256 action).bind (performAll sha256 · rest)

theorem run_of_performAll (performed : performAll sha256 host actions = some after) :
    QueueRun sha256 host after := by
  induction actions generalizing host with
  | nil =>
    cases performed
    exact .refl
  | cons action rest ih =>
    obtain ⟨next, first, others⟩ := Option.bind_eq_some_iff.mp performed
    exact .head ⟨action, first⟩ (ih others)

/-- The actions one after the other, as long as requests are enqueued in order. -/
def orderlyAll (sha256 : PayloadDigest) (host : QueueHost Reply) :
    List (QueueAction Reply) → Option (QueueHost Reply)
  | [] => some host
  | action :: rest =>
    if Orderly host action then (host.perform sha256 action).bind (orderlyAll sha256 · rest)
    else none

theorem run_of_orderlyAll (performed : orderlyAll sha256 host actions = some after) :
    OrderlyRun sha256 host after := by
  induction actions generalizing host with
  | nil =>
    cases performed
    exact .refl
  | cons action rest ih =>
    unfold orderlyAll at performed
    split at performed
    · rename_i orderly
      obtain ⟨next, first, others⟩ := Option.bind_eq_some_iff.mp performed
      exact .head ⟨action, first, orderly⟩ (ih others)
    · cases performed

theorem shown_read (isShown : shown host queueRequestId = some (position, revision)) :
    ∃ record, loadQueueRecordUnowned host.queue queueRequestId = .ok (some record) ∧
      record.status.position = position ∧ record.status.stateRevision = revision := by
  unfold shown at isShown
  obtain ⟨record, read, made⟩ := Option.map_eq_some_iff.mp isShown
  cases made
  refine ⟨record, ?_, rfl, rfl⟩
  cases loaded : loadQueueRecordUnowned host.queue queueRequestId with
  | error e =>
    rw [loaded] at read
    cases read
  | ok found =>
    rw [loaded] at read
    cases found with
    | none => cases read
    | some found =>
      cases read
      rfl

/-- The daemon starts again after the first request has expired: the second one has
moved up, and its revision is the same. -/
theorem position_changes_at_restart :
    ∃ (first second : QueueHost Unit) (record again : StoredQueueRecord),
      QueueRun sampleSha256 (.new emptyStore) first ∧ QueueRun sampleSha256 first second ∧
      loadQueueRecordUnowned first.queue sampleNextQueueRequestId = .ok (some record) ∧
      loadQueueRecordUnowned second.queue sampleNextQueueRequestId = .ok (some again) ∧
      again.status.stateRevision = record.status.stateRevision ∧
      record.status.position = some 2 ∧ again.status.position = some 1 := by
  have ran : ((performAll sampleSha256 (.new emptyStore)
      [sampleEnqueue sampleQueueRequestId "first" 0,
        sampleEnqueue sampleNextQueueRequestId "second" 1]).bind fun first =>
      (performAll sampleSha256 first [.restart, .expire (seconds 3600)]).map fun second =>
        (shown first sampleNextQueueRequestId, shown second sampleNextQueueRequestId)) =
      some (some (some 2, 1), some (some 1, 1)) := by
    decide +kernel
  obtain ⟨first, enqueued, ran⟩ := Option.bind_eq_some_iff.mp ran
  obtain ⟨second, restarted, both⟩ := Option.map_eq_some_iff.mp ran
  obtain ⟨before, after⟩ := Prod.mk.inj both
  obtain ⟨record, read, position, revision⟩ := shown_read before
  obtain ⟨again, reread, position', revision'⟩ := shown_read after
  exact ⟨first, second, record, again, run_of_performAll enqueued, run_of_performAll restarted,
    read, reread, by rw [revision, revision'], position, position'⟩

/-- The second request is told that the first one is cancelled, and then another one
is enqueued. -/
theorem queue_revision_identifies_told :
    ∃ (first second : QueueHost Unit) (record again : StoredQueueRecord),
      loadQueueRecordUnowned first.queue sampleNextQueueRequestId = .ok (some record) ∧
      loadQueueRecordUnowned second.queue sampleNextQueueRequestId = .ok (some again) ∧
      record.status.stateRevision = 2 ∧ again.status.stateRevision = 2 ∧
      (queuedOf second.queue "host-test:desktop").length = 2 ∧
      again.status.position = record.status.position := by
  have ran : ((performAll sampleSha256 (.new emptyStore)
      [sampleEnqueue sampleQueueRequestId "first" 0,
        sampleEnqueue sampleNextQueueRequestId "second" 1,
        .cancel "principal-test" sampleQueueRequestId (seconds 2),
        .announce "host-test:desktop" 1 (fun _ => seconds 2)]).bind fun first =>
      (orderlyAll sampleSha256 first [sampleEnqueue
        ⟨"rq_0190b7a8-7c1d-7a00-8000-000000000003", by decide⟩ "third" 3]).map fun second =>
        (shown first sampleNextQueueRequestId, shown second sampleNextQueueRequestId,
          decide (second.owed = [] ∧ (queuedOf second.queue "host-test:desktop").length = 2))) =
      some (some (some 1, 2), some (some 1, 2), true) := by
    decide +kernel
  obtain ⟨first, before, ran⟩ := Option.bind_eq_some_iff.mp ran
  obtain ⟨second, after, all⟩ := Option.map_eq_some_iff.mp ran
  obtain ⟨seen, rest⟩ := Prod.mk.inj all
  obtain ⟨reseen, last⟩ := Prod.mk.inj rest
  obtain ⟨owed, length⟩ := of_decide_eq_true last
  obtain ⟨record, read, _, revision⟩ := shown_read seen
  obtain ⟨again, reread, _, revision'⟩ := shown_read reseen
  have identifies := (queue_revision_identifies emptyStore first sampleNextQueueRequestId
    (run_of_performAll before) read).2.1 second again (run_of_orderlyAll after)
    (fun position isOwed => by rw [owed] at isOwed; cases isOwed) reread
    (by rw [revision, revision'])
  exact ⟨first, second, record, again, read, reread, revision, revision', length, identifies⟩

end Satelle.QueueRevisions
