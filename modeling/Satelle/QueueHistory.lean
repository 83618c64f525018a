import Satelle.QueueEntries
import Satelle.StoreRefinement

/-! The turn queue over whole histories: whatever transactions come in whatever
order, positions are the ranks in order of arrival, a request is settled once,
its revision counts, and its key stands for it. -/
namespace Satelle.QueueHistory
open Satelle.Core Lib Host QueueChanges QueueEntries StoreRefinement
open StorageError (fail)

/-! ## Histories -/

/-- A transaction on the queue, or any other one of the store. -/
inductive Transaction where
  | queue (call : QueueCall)
  | store (call : StoreCall)

def performed (state : QueueStore) : Transaction → QueueStore
  | .queue call => (serveQueue state call).2
  | .store call => { state with store := (serve rfc3339 state.store call).2 }

def Timely : Transaction → Prop
  | .queue call => WellTimed call
  | .store _ => True

/-- A later state of a history. -/
def Later : QueueStore → QueueStore → Prop :=
  Relation.ReflTransGen fun state after => ∃ transaction, Timely transaction ∧
    performed state transaction = after

/-- A state some history that began with an empty queue arrives at. -/
def ReachableQueue (state : QueueStore) : Prop :=
  ∃ start, start.queue = .empty ∧ Later start state

theorem later_steps (later : Later state after) : Steps state.queue after.queue := by
  induction later with
  | refl => exact .refl
  | tail _ step ih =>
    obtain ⟨transaction, timely, rfl⟩ := step
    cases transaction with
    | queue call => exact ih.trans (serveQueue_steps timely)
    | store call => exact ih

theorem reachable_sound (reachable : ReachableQueue state) : Sound state.queue := by
  obtain ⟨start, empty, later⟩ := reachable
  have sound : Sound start.queue := empty ▸ empty_sound
  exact steps_sound sound (later_steps later)

/-! ## Order of arrival -/

/-- The request came earlier, or at the same instant with a smaller identifier. -/
def Earlier (a b : QueueRow) : Prop :=
  ∃ first second, Rfc3339.parse a.enqueuedAt = some first ∧
    Rfc3339.parse b.enqueuedAt = some second ∧
    (first < second ∨ first = second ∧ a.queueRequestId < b.queueRequestId)

/-- The texts are compared as the instants are. -/
theorem fifoKey_lt_iff (first : Encodes a entry) (second : Encodes b entry') :
    a.fifoKey < b.fifoKey ↔ entry.enqueuedAt < entry'.enqueuedAt ∨
      entry.enqueuedAt = entry'.enqueuedAt ∧ a.queueRequestId < b.queueRequestId := by
  rw [QueueRow.fifoKey, QueueRow.fifoKey, Prod.Lex.toLex_lt_toLex,
    Rfc3339.trimZ_lt_iff first.enqueuedAt second.enqueuedAt,
    Rfc3339.trimZ_inj first.enqueuedAt second.enqueuedAt]

/-- **Texts without their `Z` are in order of time.** All instants of the years 0 to 9999 have a
text, and it is the trimmed texts that the queries compare. -/
theorem trimmed_times_chronological (a b : OffsetDateTime) (first : Rfc3339.Formatted a)
    (second : Rfc3339.Formatted b) :
    ∃ text text', formatTime rfc3339 a = .ok text ∧ formatTime rfc3339 b = .ok text' ∧
      (Rfc3339.trimZ text < Rfc3339.trimZ text' ↔ a < b) ∧
      (Rfc3339.trimZ text = Rfc3339.trimZ text' ↔ a = b) := by
  have written := Rfc3339.format_eq_some.mpr ⟨first, rfl⟩
  have written' := Rfc3339.format_eq_some.mpr ⟨second, rfl⟩
  exact ⟨_, _, orFail_ok.mpr written, orFail_ok.mpr written',
    Rfc3339.trimZ_lt_iff written written', Rfc3339.trimZ_inj written written'⟩

theorem trimmed_times_chronological_second :
    ∃ text text', formatTime rfc3339 0 = .ok text ∧ formatTime rfc3339 1 = .ok text' ∧
      Rfc3339.trimZ text < Rfc3339.trimZ text' := by
  obtain ⟨text, text', first, second, order, _⟩ :=
    trimmed_times_chronological 0 1 (by decide) (by decide)
  exact ⟨text, text', first, second, order.mpr (by decide)⟩

theorem earlier_of_fifoKey (sound : Sound queue) (first : a ∈ queue.rows) (second : b ∈ queue.rows)
    (less : a.fifoKey < b.fifoKey) : Earlier a b := by
  obtain ⟨entry, encodes⟩ := sound.entries a first
  obtain ⟨entry', encodes'⟩ := sound.entries b second
  exact ⟨_, _, Rfc3339.parse_format _ _ encodes.enqueuedAt,
    Rfc3339.parse_format _ _ encodes'.enqueuedAt, (fifoKey_lt_iff encodes encodes').mp less⟩

/-- What the rows of a desktop are read as, one after the other. -/
structure Ranked (queue : QueueTable) (leaseKey : String) (rows : List QueueRow) : Prop where
  complete : rows.Perm (queuedOf queue leaseKey)
  chronological : rows.Pairwise Earlier
  positions : ∀ index row, rows[index]? = some row →
    ∃ record, decodeQueueRecord queue row = .ok record ∧ record.status.position = some (index + 1)
  first : firstQueuedRequest queue leaseKey = rows.head?.mapM (decodeQueueRecord queue)

theorem decode_sound (sound : Sound queue) (member : row ∈ queue.rows) :
    ∃ entry, Encodes row entry ∧ decodeQueueRecord queue row = .ok (entry.record queue row) := by
  obtain ⟨entry, encodes⟩ := sound.entries row member
  exact ⟨entry, encodes, encodes.decode fun _ => position_small sound row⟩

theorem selectedId_encodes (encodes : Encodes row entry) :
    selectedId row = .ok entry.queueRequestId := by
  rw [selectedId, encodes.queueRequestId, PublicId.parse_text]
  rfl

theorem require_sound (sound : Sound queue) (member : row ∈ queue.rows) (encodes : Encodes row entry) :
    requireQueueRecord queue entry.queueRequestId = decodeQueueRecord queue row := by
  have found : queue.lookup entry.queueRequestId.text = some row :=
    Table.lookup_eq_some.mpr ⟨member, encodes.queueRequestId⟩
  have decoded : decodeQueueRecord queue row = .ok (entry.record queue row) :=
    encodes.decode fun _ => position_small sound row
  unfold requireQueueRecord loadQueueRecordUnowned
  rw [found]
  dsimp only
  rw [decoded]
  rfl

theorem firstQueuedRequest_sound (sound : Sound queue) (leaseKey : String) :
    firstQueuedRequest queue leaseKey =
      (fifoOf queue leaseKey).head?.mapM (decodeQueueRecord queue) := by
  unfold firstQueuedRequest
  cases head : (fifoOf queue leaseKey).head? with
  | none => rfl
  | some row =>
    obtain ⟨member, _⟩ := mem_fifoOf.mp (List.mem_of_mem_head? head)
    obtain ⟨entry, encodes, decoded⟩ := decode_sound sound member
    dsimp only
    rw [selectedId_encodes encodes]
    change (requireQueueRecord queue entry.queueRequestId >>= _) = _
    rw [require_sound sound member encodes, decoded, Option.mapM_some, decoded]
    rfl

theorem fifoOf_ranked (sound : Sound queue) (leaseKey : String) :
    Ranked queue leaseKey (fifoOf queue leaseKey) where
  complete := List.perm_insertionSort _ _
  chronological := by
    refine (fifoOf_strict queue leaseKey).imp_of_mem fun first second less => ?_
    exact earlier_of_fifoKey sound (mem_fifoOf.mp first).1 (mem_fifoOf.mp second).1 less
  positions := by
    intro index row found
    obtain ⟨inside, rfl⟩ := List.getElem?_eq_some_iff.mp found
    obtain ⟨member, _, waits⟩ := mem_fifoOf.mp (List.getElem_mem inside)
    obtain ⟨entry, _, decoded⟩ := decode_sound sound member
    refine ⟨_, decoded, ?_⟩
    change shownPosition queue _ = _
    rw [shownPosition, if_pos waits, queuePosition_getElem inside]
  first := firstQueuedRequest_sound sound leaseKey

/-! ## Depth -/

theorem enqueue_depth (grown : (queuedOf state.queue leaseKey).length <
      (queuedOf (serveQueue state (.enqueue record maxDepth)).2.queue leaseKey).length) :
    (queuedOf (serveQueue state (.enqueue record maxDepth)).2.queue leaseKey).length ≤ maxDepth := by
  cases outcome : (serveQueue state (.enqueue record maxDepth)).1 with
  | error e =>
    rw [serveQueue_error outcome] at grown
    exact absurd grown (lt_irrefl _)
  | ok reply =>
    have ran : serveQueue state (.enqueue record maxDepth) =
        (.ok reply, (serveQueue state (.enqueue record maxDepth)).2) := Prod.ext outcome rfl
    obtain ⟨enqueued, done, _⟩ := transact_ok.mp ran
    generalize (serveQueue state (.enqueue record maxDepth)).2 = after at grown done ⊢
    cases (enqueue_ok done).1 with
    | full | replayed => exact absurd grown (lt_irrefl _)
    | inserted _ _ _ _ _ _ room rows =>
      rw [inserted_depth rows] at grown ⊢
      split
      · rename_i own
        rw [← own]
        exact room
      · rename_i other
        rw [if_neg other] at grown
        exact absurd grown (lt_irrefl _)

/-! ## Keys -/

/-- Two requests made with one key. -/
def SameRequest (again record : NewQueueRecord) : Prop :=
  again.principalRef = record.principalRef ∧ again.operation = record.operation ∧
    again.idempotencyKey = record.idempotencyKey

/-- The record an enqueue answers with. -/
def storedRecord : QueueEnqueueOutcome → Option StoredQueueRecord
  | .inserted record | .replayed record => some record
  | .full => none

/-- The row of a request that was enqueued. -/
structure Holds (queue : QueueTable) (record : NewQueueRecord) (stored : StoredQueueRecord)
    (row : QueueRow) : Prop where
  member : row ∈ queue.rows
  key : SameKey record row
  named : row.queueRequestId = stored.status.queueRequestId.text
  requestDigest : row.requestDigest = record.requestDigest
  payloadSha256 : row.payloadSha256 = record.payloadSha256

theorem decoded_of_map (read : (decodeQueueRecord queue row).map some = .ok (some record)) :
    decodeQueueRecord queue row = .ok record := by
  cases decoded : decodeQueueRecord queue row with
  | error e =>
    rw [decoded] at read
    cases read
  | ok own =>
    rw [decoded] at read
    cases read
    rfl

theorem loadQueueRecord_ok
    (read : loadQueueRecord queue principalRef queueRequestId = .ok (some stored)) :
    ∃ row ∈ queue.rows, row.queueRequestId = queueRequestId.text ∧
      decodeQueueRecord queue row = .ok stored := by
  unfold loadQueueRecord at read
  split at read
  · cases read
  · rename_i row found
    obtain ⟨member, named⟩ := Table.lookup_eq_some.mp found
    split at read
    · exact ⟨row, member, named, decoded_of_map read⟩
    · cases read

theorem loadUnowned_ok (read : loadQueueRecordUnowned queue queueRequestId = .ok (some stored)) :
    ∃ row ∈ queue.rows, row.queueRequestId = queueRequestId.text ∧
      decodeQueueRecord queue row = .ok stored := by
  unfold loadQueueRecordUnowned at read
  split at read
  · cases read
  · rename_i row found
    obtain ⟨member, named⟩ := Table.lookup_eq_some.mp found
    exact ⟨row, member, named, decoded_of_map read⟩

theorem requireQueueRecord_ok (required : requireQueueRecord queue queueRequestId = .ok stored) :
    ∃ row ∈ queue.rows, row.queueRequestId = queueRequestId.text ∧
      decodeQueueRecord queue row = .ok stored := by
  simp only [requireQueueRecord, except_bind_ok, orFail_ok] at required
  obtain ⟨_, read, rfl⟩ := required
  exact loadUnowned_ok read

/-- What is read of any row. -/
theorem decode_ok (decoded : decodeQueueRecord queue row = .ok record) :
    record.leaseKey = row.leaseKey ∧ record.payloadFile = row.payloadFile ∧
      row.queueRequestId = record.status.queueRequestId.text := by
  unfold decodeQueueRecord at decoded
  simp only [except_bind_ok, orFail_ok] at decoded
  obtain ⟨_, _, _, _, _, parsed, _, _, _, _, _, _, _, _, _, _, _, _, _, _, _, _, _, shown, made⟩ :=
    decoded
  cases made
  simp only [QueueStatus.new, Option.bind_eq_bind, Option.bind_eq_some_iff] at shown
  obtain ⟨_, _, _, _, made⟩ := shown
  cases made
  exact ⟨rfl, rfl, (PublicId.parse_eq_some.mp parsed).symm⟩

theorem loadQueueRecord_named (sound : Sound queue)
    (read : loadQueueRecord queue principalRef queueRequestId = .ok (some stored)) :
    stored.status.queueRequestId = queueRequestId := by
  obtain ⟨row, member, named, isStored⟩ := loadQueueRecord_ok read
  obtain ⟨entry, encodes, decoded⟩ := decode_sound sound member
  rw [decoded] at isStored
  cases isStored
  rw [← PublicId.text_inj, ← named]
  exact encodes.queueRequestId.symm

/-- An enqueue that was answered with a record left its row in the queue. -/
theorem enqueue_holds (sound : Sound state.queue) (timed : record.enqueuedAt < record.expiresAt)
    (ran : enqueueQueueRequest state record maxDepth = .ok (outcome, after))
    (answered : storedRecord outcome = some stored) : ∃ row, Holds after.queue record stored row := by
  have sound' := steps_sound sound (enqueue_steps timed ran)
  cases (enqueue_ok ran).1 with
  | full => cases answered
  | replayed known read =>
    cases answered
    unfold loadIdempotentQueueRecord at known
    split at known
    · cases known
    · rename_i row selected
      simp only [except_bind_ok, orFail_ok] at known
      obtain ⟨_, parsed, made⟩ := known
      simp only [except_pure_ok, Option.some.injEq, Prod.mk.injEq] at made
      obtain ⟨rfl, digest, payload⟩ := made
      have key := List.find?_some selected
      simp only [Bool.and_eq_true, decide_eq_true_eq] at key
      refine ⟨row, List.mem_of_find?_eq_some selected, ⟨key.1.1, key.1.2, key.2⟩, ?_, digest,
        payload⟩
      rw [loadQueueRecord_named sound read, PublicId.parse_eq_some.mp parsed]
  | inserted enqueuedAt expiresAt _ _ _ _ _ rows read =>
    cases answered
    refine ⟨newQueueRow record enqueuedAt expiresAt, ?_, ⟨rfl, rfl, rfl⟩, ?_, rfl, rfl⟩
    · rw [rows]
      exact List.mem_append_right _ (List.mem_singleton_self _)
    · rw [loadQueueRecord_named sound' read]
      rfl

theorem holds_later (holds : Holds queue record stored row) (steps : Steps queue after) :
    ∃ later, Holds after record stored later := by
  obtain ⟨later, member, follows⟩ := steps_follow steps row holds.member
  refine ⟨later, member, ?_, ?_, ?_, ?_⟩
  · unfold SameKey
    rw [follows.kept]
    exact holds.key
  · rw [follows.kept]
    exact holds.named
  · rw [follows.kept]
    exact holds.requestDigest
  · rw [follows.kept]
    exact holds.payloadSha256

/-- The key of a request that is in the queue finds it, and nothing else. -/
theorem loadIdempotent_holds (sound : Sound queue) (holds : Holds queue record stored row)
    (same : SameRequest again record) :
    loadIdempotentQueueRecord queue again.principalRef again.operation again.idempotencyKey =
      .ok (some (stored.status.queueRequestId, record.requestDigest, record.payloadSha256)) := by
  obtain ⟨principal, operation, key⟩ := holds.key
  obtain ⟨found, selected⟩ : ∃ found, queue.rows.find? (fun row =>
      row.principalRef = again.principalRef && row.operation = again.operation.asStr &&
        row.idempotencyKey = again.idempotencyKey) = some found := by
    refine Option.isSome_iff_exists.mp (List.find?_isSome.mpr ⟨row, holds.member, ?_⟩)
    simp [principal, operation, key, same.1, same.2.1, same.2.2]
  have matches_key := List.find?_some selected
  simp only [Bool.and_eq_true, decide_eq_true_eq, same.1, same.2.1, same.2.2] at matches_key
  obtain rfl : found = row := sound.once found (List.mem_of_find?_eq_some selected) row holds.member
    (matches_key.1.1.trans principal.symm) (matches_key.1.2.trans operation.symm)
    (matches_key.2.trans key.symm)
  unfold loadIdempotentQueueRecord
  rw [selected]
  dsimp only
  rw [holds.named, PublicId.parse_text, holds.requestDigest, holds.payloadSha256]
  rfl

theorem enqueue_again (sound : Sound state.queue) (holds : Holds state.queue record stored row)
    (same : SameRequest again record) (maxDepth : Fin u16Size) :
    if again.requestDigest = record.requestDigest ∧ again.payloadSha256 = record.payloadSha256 then
      ∃ current, serveQueue state (.enqueue again maxDepth) =
          (.ok (.enqueued (.replayed current)), state) ∧
        current.status.queueRequestId = stored.status.queueRequestId
    else serveQueue state (.enqueue again maxDepth) = (fail .idempotencyConflict, state) := by
  have found := loadIdempotent_holds sound holds same
  split
  · rename_i agree
    obtain ⟨entry, encodes, decoded⟩ := decode_sound sound holds.member
    have looked : state.queue.lookup stored.status.queueRequestId.text = some row :=
      Table.lookup_eq_some.mpr ⟨holds.member, holds.named⟩
    have read : loadQueueRecord state.queue again.principalRef stored.status.queueRequestId =
        .ok (some (entry.record state.queue row)) := by
      unfold loadQueueRecord
      rw [looked]
      dsimp only
      rw [if_pos (holds.key.1.trans same.1.symm), decoded]
      rfl
    refine ⟨entry.record state.queue row, ?_, loadQueueRecord_named sound read⟩
    refine transact_ok.mpr ⟨.replayed (entry.record state.queue row), ?_, rfl⟩
    unfold enqueueQueueRequest
    simp only [except_bind_ok]
    refine ⟨_, found, ?_⟩
    simp only [except_bind_ok, ensure_ok, orFail_ok]
    exact ⟨(), ⟨agree.1.symm, agree.2.symm⟩, _, read, _, rfl, rfl⟩
  · rename_i differ
    have refused : enqueueQueueRequest state again maxDepth = fail .idempotencyConflict := by
      unfold enqueueQueueRequest
      rw [found]
      change (ensure _ _ >>= _) = _
      rw [ensure, if_neg (fun agree => differ ⟨agree.1.symm, agree.2.symm⟩)]
      rfl
    change transact state QueueReply.enqueued (enqueueQueueRequest state again maxDepth) = _
    rw [refused]
    rfl

/-! ## The invariant -/

/-- In every history: the requests of a desktop that wait are at the positions
1, 2, … in order of arrival, every request is read as a status that passes its
check, no enqueue fills a queue beyond its bound, a request is settled once and
its revision counts, and a key that was used stands for its request. -/
theorem queue_table_invariant (reachable : ReachableQueue state) :
    (∀ leaseKey, ∃ rows, Ranked state.queue leaseKey rows) ∧
    (∀ row ∈ state.queue.rows, ∃ record, decodeQueueRecord state.queue row = .ok record ∧
      record.status.validate = .ok ()) ∧
    (∀ record maxDepth leaseKey, (queuedOf state.queue leaseKey).length <
        (queuedOf (serveQueue state (.enqueue record maxDepth)).2.queue leaseKey).length →
      (queuedOf (serveQueue state (.enqueue record maxDepth)).2.queue leaseKey).length ≤ maxDepth) ∧
    (∀ after, Later state after → ∀ row ∈ state.queue.rows, ∃ later ∈ after.queue.rows,
      later.queueRequestId = row.queueRequestId ∧
      (row.status ≠ "queued" → later.status = row.status) ∧
      row.stateRevision ≤ later.stateRevision ∧
      (later.status ≠ row.status → row.stateRevision < later.stateRevision)) ∧
    (∀ record maxDepth outcome stored, record.enqueuedAt < record.expiresAt →
      (serveQueue state (.enqueue record maxDepth)).1 = .ok (.enqueued outcome) →
      storedRecord outcome = some stored →
      ∀ after, Later (serveQueue state (.enqueue record maxDepth)).2 after →
      ∀ again maxDepth', SameRequest again record →
        if again.requestDigest = record.requestDigest ∧
            again.payloadSha256 = record.payloadSha256 then
          ∃ current, serveQueue after (.enqueue again maxDepth') =
              (.ok (.enqueued (.replayed current)), after) ∧
            current.status.queueRequestId = stored.status.queueRequestId
        else serveQueue after (.enqueue again maxDepth') = (fail .idempotencyConflict, after)) := by
  have sound := reachable_sound reachable
  refine ⟨?_, ?_, ?_, ?_, ?_⟩
  · intro leaseKey
    exact ⟨fifoOf state.queue leaseKey, fifoOf_ranked sound leaseKey⟩
  · intro row member
    obtain ⟨entry, encodes, decoded⟩ := decode_sound sound member
    exact ⟨_, decoded, encodes.validate⟩
  · intro record maxDepth leaseKey grown
    exact enqueue_depth grown
  · intro after later row member
    obtain ⟨next, there, follows⟩ := steps_follow (later_steps later) row member
    refine ⟨next, there, follows.queueRequestId, ?_, follows.revision, follows.counted⟩
    intro settled
    rw [follows.settled (decide_eq_false settled)]
  · intro record maxDepth outcome stored timed answered kept after later again maxDepth' same
    have ran := transact_ok.mp (Prod.ext answered rfl :
      serveQueue state (.enqueue record maxDepth) = (.ok (.enqueued outcome), _))
    obtain ⟨value, done, made⟩ := ran
    cases made
    obtain ⟨row, holds⟩ := enqueue_holds sound timed done kept
    obtain ⟨row, holds⟩ := holds_later holds (later_steps later)
    have steps : Steps state.queue after.queue :=
      (enqueue_steps timed done).trans (later_steps later)
    exact enqueue_again (steps_sound sound steps) holds same maxDepth'

/-! A queue with two requests, of which the second one arrived before the
first. -/

def sampleQueueRequestId : QueueRequestId := ⟨"rq_0190b7a8-7c1d-7a00-8000-000000000001", by decide⟩

def sampleNextQueueRequestId : QueueRequestId :=
  ⟨"rq_0190b7a8-7c1d-7a00-8000-000000000002", by decide⟩

def sampleDesktop : DesktopBindingRef := ⟨"desktop", by decide⟩

def sampleQueueRecord (queueRequestId : QueueRequestId) (key : String) (instant : OffsetDateTime) :
    NewQueueRecord where
  queueRequestId := queueRequestId
  leaseKey := "host:desktop"
  desktopBinding := sampleDesktop
  tokenId := "token"
  credentialRevision := 1
  principalRef := "principal-test"
  operation := .run
  idempotencyKey := key
  requestDigest := sampleDigest
  payloadFile := key
  payloadSha256 := sampleDigest
  enqueuedAt := instant
  expiresAt := instant + seconds 60
  sessionId := none

def sampleDepth : Fin u16Size := ⟨8, by decide⟩

/-- The second request is for an instant half a second before that of the first. -/
def sampleQueue : QueueStore :=
  (serveQueue (serveQueue ⟨emptyStore, .empty⟩
    (.enqueue (sampleQueueRecord sampleQueueRequestId "first" (seconds 2)) sampleDepth)).2
    (.enqueue (sampleQueueRecord sampleNextQueueRequestId "second" (seconds 1 + 500000000))
      sampleDepth)).2

theorem sampleQueue_reachable : ReachableQueue sampleQueue := by
  refine ⟨⟨emptyStore, .empty⟩, rfl, .tail (.single ⟨.queue _, ?_, rfl⟩) ⟨.queue _, ?_, rfl⟩⟩
  · change seconds 2 < seconds 2 + seconds 60
    decide
  · change seconds 1 + 500000000 < seconds 1 + 500000000 + seconds 60
    decide

theorem queue_table_invariant_sample :
    (fifoOf sampleQueue.queue "host:desktop").map (·.queueRequestId) =
      [sampleNextQueueRequestId.text, sampleQueueRequestId.text] ∧
    (∀ leaseKey, ∃ rows, Ranked sampleQueue.queue leaseKey rows) := by
  refine ⟨?_, (queue_table_invariant sampleQueue_reachable).1⟩
  decide +kernel

/-! ## Fairness -/

/-- While only requests that have arrived after it enter the queue of its desktop, a request
that waits never moves back. -/
theorem waiting_request_not_overtaken (later : Later state after)
    (waits : row ∈ queuedOf state.queue leaseKey)
    (behind : ∀ other ∈ queuedOf after.queue leaseKey, row.fifoKey < other.fifoKey ∨
      ∃ prior ∈ state.queue.rows, prior.queueRequestId = other.queueRequestId) :
    ∃ now ∈ after.queue.rows, now.queueRequestId = row.queueRequestId ∧
      queuePosition after.queue now ≤ queuePosition state.queue row := by
  have follow := steps_follow (later_steps later)
  obtain ⟨there, lease, _⟩ := mem_queuedOf.mp waits
  obtain ⟨now, isNow, follows⟩ := follow row there
  have key : now.fifoKey = row.fifoKey := by rw [follows.kept]; rfl
  refine ⟨now, isNow, follows.queueRequestId, ?_⟩
  rw [queuePosition, queuePosition, follows.leaseKey, lease, key]
  simp only [List.countP_eq_length_filter, ← List.length_map QueueRow.queueRequestId]
  -- each request that is counted now was counted before
  refine (List.subperm_of_subset ?_ ?_).length_le
  · exact after.queue.unique.sublist ((List.filter_sublist.trans List.filter_sublist).map _)
  · intro name member
    obtain ⟨other, counted, rfl⟩ := List.mem_map.mp member
    obtain ⟨queued, small⟩ := List.mem_filter.mp counted
    obtain ⟨inside, sameLease, isQueued⟩ := mem_queuedOf.mp queued
    obtain ⟨prior, before, named⟩ := (behind other queued).resolve_left
      (not_lt.mpr (of_decide_eq_true small))
    obtain ⟨moved, found, follows⟩ := follow prior before
    obtain rfl := after.queue.row_unique found inside (follows.queueRequestId.trans named)
    refine List.mem_map.mpr ⟨prior, List.mem_filter.mpr ⟨mem_queuedOf.mpr
      ⟨before, follows.leaseKey ▸ sameLease, follows.waits isQueued⟩, ?_⟩, named⟩
    rw [follows.kept] at small
    exact small

/-- The first of the two requests is cancelled. -/
def cancelledQueue : QueueStore :=
  (serveQueue sampleQueue (.cancel "principal-test" sampleNextQueueRequestId (seconds 3))).2

theorem waiting_request_not_overtaken_cancelled :
    ∃ row ∈ queuedOf sampleQueue.queue "host:desktop", ∃ now ∈ cancelledQueue.queue.rows,
      now.queueRequestId = row.queueRequestId ∧
      queuePosition cancelledQueue.queue now ≤ queuePosition sampleQueue.queue row := by
  obtain ⟨row, waits⟩ := List.exists_mem_of_ne_nil (queuedOf sampleQueue.queue "host:desktop")
    (by decide +kernel)
  have known : ∀ other ∈ queuedOf cancelledQueue.queue "host:desktop",
      ∃ prior ∈ sampleQueue.queue.rows, prior.queueRequestId = other.queueRequestId := by
    decide +kernel
  exact ⟨row, waits, waiting_request_not_overtaken (.single ⟨.queue (.cancel _ _ _), trivial, rfl⟩)
    waits
    fun other queued => .inr (known other queued)⟩

end Satelle.QueueHistory
