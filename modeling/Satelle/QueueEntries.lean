import Satelle.Lib.Ranking
import Satelle.QueueChanges

/-! The requests that the rows of the queue stand for. An `Entry` cannot be in a
state its other fields contradict; every row of a table that the transactions
have made is the text of one, and so it is read back. -/
namespace Satelle.QueueEntries
open Satelle.Core Lib Host QueueChanges

/-! ## Entries -/

inductive EntryState where
  | queued
  | admitted (sessionId : SessionId) (turnId : TurnId)
  | cancelled
  | expired
  | validationFailed (failure : QueueFailure)

namespace EntryState

def status : EntryState → QueueRequestStatus
  | .queued => .queued
  | .admitted _ _ => .admitted
  | .cancelled => .cancelled
  | .expired => .expired
  | .validationFailed _ => .validationFailed

def turnId : EntryState → Option TurnId
  | .admitted _ turnId => some turnId
  | .queued | .cancelled | .expired | .validationFailed _ => none

def failure : EntryState → Option QueueFailure
  | .validationFailed failure => some failure
  | .queued | .cancelled | .expired | .admitted _ _ => none

/-- The Session of a request: the one it asked for until it is admitted. -/
def sessionId (asked : Option SessionId) : EntryState → Option SessionId
  | .admitted sessionId _ => some sessionId
  | .queued | .cancelled | .expired | .validationFailed _ => asked

end EntryState

structure Entry where
  queueRequestId : QueueRequestId
  operation : TurnQueueOperation
  desktopBinding : DesktopBindingRef
  asked : Option SessionId
  enqueuedAt : OffsetDateTime
  expiresAt : OffsetDateTime
  patient : enqueuedAt < expiresAt
  state : EntryState
  revision : Nat
  counted : 0 < revision

/-- The row holds the texts of the entry. -/
structure Encodes (row : QueueRow) (entry : Entry) : Prop where
  queueRequestId : row.queueRequestId = entry.queueRequestId.text
  operation : row.operation = entry.operation.asStr
  desktopBinding : row.desktopBindingRef = some entry.desktopBinding.text
  enqueuedAt : Rfc3339.format entry.enqueuedAt = some row.enqueuedAt
  expiresAt : Rfc3339.format entry.expiresAt = some row.expiresAt
  status : row.status = entry.state.status.asStr
  sessionId : row.sessionId = (entry.state.sessionId entry.asked).map (·.text)
  turnId : row.turnId = entry.state.turnId.map (·.text)
  failureCode : row.failureCode = entry.state.failure.map (·.code)
  failureMessage : row.failureMessage = entry.state.failure.map (·.message)
  revision : row.stateRevision = entry.revision

theorem Encodes.isQueued (encodes : Encodes row entry) :
    row.isQueued = true ↔ entry.state = .queued := by
  rw [QueueRow.isQueued, encodes.status]
  cases entry.state <;> simp [EntryState.status, QueueRequestStatus.asStr]

/-! ## Reading an entry -/

@[simp] theorem parse_asStr (operation : TurnQueueOperation) :
    TurnQueueOperation.parse operation.asStr = .ok operation := by
  cases operation <;> rfl

@[simp] theorem parseQueueStatus_asStr (status : QueueRequestStatus) :
    parseQueueStatus status.asStr = .ok status := by
  cases status <;> rfl

/-- The public status of an entry at a position. -/
def Entry.status (entry : Entry) (position : Option Nat) (row : QueueRow) : QueueStatus where
  schemaVersion := queueStatusSchemaVersion
  queueRequestId := entry.queueRequestId
  status := entry.state.status
  position := position
  enqueuedAt := row.enqueuedAt
  expiresAt := row.expiresAt
  sessionId := entry.state.sessionId entry.asked
  turnId := entry.state.turnId
  failure := entry.state.failure
  stateRevision := entry.revision

/-- The position that is shown: only a request that waits has one. -/
def shownPosition (queue : QueueTable) (row : QueueRow) : Option Nat :=
  if row.isQueued then some (queuePosition queue row) else none

def Entry.record (entry : Entry) (queue : QueueTable) (row : QueueRow) : StoredQueueRecord where
  status := entry.status (shownPosition queue row) row
  desktopBinding := entry.desktopBinding
  leaseKey := row.leaseKey
  operation := entry.operation
  payloadFile := row.payloadFile
  payloadSha256 := row.payloadSha256

theorem mapM_parse (found : Option (PublicId kind)) :
    (found.map (·.text)).mapM (fun value => orFail .invalidStoredState
      (PublicId.parse value : Option (PublicId kind))) = (.ok found : Except StorageError _) := by
  cases found with
  | none => rfl
  | some id => simp [orFail]

section Encodes
variable (encodes : Encodes row entry)
include encodes

theorem Encodes.storedFailure :
    storedFailure row = .ok entry.state.failure := by
  rw [Host.storedFailure, encodes.failureCode, encodes.failureMessage]
  cases entry.state.failure <;> rfl

theorem Encodes.storedPosition (small : row.isQueued = true → queuePosition queue row < u16Size) :
    storedPosition queue entry.state.status row = .ok (shownPosition queue row) := by
  unfold Host.storedPosition shownPosition
  by_cases waits : row.isQueued = true
  · rw [if_pos waits, encodes.isQueued.mp waits]
    simp [EntryState.status, ensure, small waits]
  · have done : entry.state.status ≠ .queued := by
      intro queued
      apply waits
      rw [QueueRow.isQueued, encodes.status, queued]
      rfl
    rw [if_neg waits, if_neg done]

theorem Encodes.decode (small : row.isQueued = true → queuePosition queue row < u16Size) :
    decodeQueueRecord queue row = .ok (entry.record queue row) := by
  have enqueued := Rfc3339.parse_format _ _ encodes.enqueuedAt
  have expires := Rfc3339.parse_format _ _ encodes.expiresAt
  have new : QueueStatus.new entry.queueRequestId entry.state.status (shownPosition queue row)
      entry.enqueuedAt entry.expiresAt (entry.state.sessionId entry.asked) entry.state.turnId
      entry.state.failure row.stateRevision = some (entry.status (shownPosition queue row) row) := by
    simp [QueueStatus.new, encodes.enqueuedAt, encodes.expiresAt, Entry.status, encodes.revision]
  unfold decodeQueueRecord
  simp only [except_bind_ok, orFail_ok]
  refine ⟨_, encodes.desktopBinding, entry.desktopBinding, ?_, entry.queueRequestId, ?_,
    entry.operation, ?_, entry.state.status, ?_, _, ?_, _, ?_, _, encodes.storedFailure, _,
    encodes.storedPosition small, entry.enqueuedAt, ?_, entry.expiresAt, ?_, _, new, rfl⟩
  · rw [storedReference, Reference.new_text]
    rfl
  · rw [encodes.queueRequestId, PublicId.parse_text]
  · rw [encodes.operation, parse_asStr]
  · rw [encodes.status, parseQueueStatus_asStr]
  · rw [encodes.sessionId]
    exact mapM_parse _
  · rw [encodes.turnId]
    exact mapM_parse _
  · exact orFail_ok.mpr enqueued
  · exact orFail_ok.mpr expires

/-- What is read passes the check of the public status. -/
theorem Encodes.validate :
    (entry.record queue row).status.validate = .ok () := by
  have enqueued := Rfc3339.parse_format _ _ encodes.enqueuedAt
  have expires := Rfc3339.parse_format _ _ encodes.expiresAt
  have shape : (entry.record queue row).status.shapeIsValid = true := by
    have waits := encodes.isQueued
    simp only [QueueStatus.shapeIsValid, Entry.record, Entry.status, shownPosition]
    cases state : entry.state with
    | queued => simp [waits.mpr state, EntryState.status, EntryState.turnId, EntryState.failure]
    | admitted | cancelled | expired | validationFailed =>
      have done : row.isQueued = false := by
        rw [← Bool.not_eq_true, waits, state]
        exact EntryState.noConfusion
      simp [done, EntryState.status, EntryState.turnId, EntryState.failure, EntryState.sessionId]
  have positive := entry.counted
  unfold QueueStatus.validate
  rw [if_neg, shape]
  · simp only [Entry.record, Entry.status, enqueued, expires, if_neg (not_le.mpr entry.patient)]
    rfl
  · simp only [Entry.record, Entry.status, ne_eq, not_true_eq_false, false_or]
    omega

end Encodes

/-! ## Tables of entries -/

/-- Every row is the text of an entry, no key is used twice, and no queue is so
long that a position has no 16-bit number. -/
structure Sound (queue : QueueTable) : Prop where
  entries : ∀ row ∈ queue.rows, ∃ entry, Encodes row entry
  once : ∀ a ∈ queue.rows, ∀ b ∈ queue.rows, a.principalRef = b.principalRef →
    a.operation = b.operation → a.idempotencyKey = b.idempotencyKey → a = b
  depth : ∀ leaseKey, (queuedOf queue leaseKey).length < u16Size

theorem Encodes.move (encodes : Encodes row entry) (waits : row.isQueued = true)
    (move : Move row later) : ∃ next, Encodes later next := by
  have queued := encodes.isQueued.mp waits
  have status := encodes.status
  have sessionId := encodes.sessionId
  have turnId := encodes.turnId
  have failureCode := encodes.failureCode
  have failureMessage := encodes.failureMessage
  have revision := encodes.revision
  rw [queued] at status sessionId turnId failureCode failureMessage
  -- the entry in its next state, whose columns are to be compared
  have next (state : EntryState) (later : QueueRow)
      (kept : later.queueRequestId = row.queueRequestId ∧ later.operation = row.operation ∧
        later.desktopBindingRef = row.desktopBindingRef ∧ later.enqueuedAt = row.enqueuedAt ∧
        later.expiresAt = row.expiresAt ∧ later.stateRevision = row.stateRevision + 1)
      (status : later.status = state.status.asStr)
      (sessionId : later.sessionId = (state.sessionId entry.asked).map (·.text))
      (turnId : later.turnId = state.turnId.map (·.text))
      (failureCode : later.failureCode = state.failure.map (·.code))
      (failureMessage : later.failureMessage = state.failure.map (·.message)) :
      ∃ next, Encodes later next := by
    obtain ⟨id, operation, binding, enqueued, expires, counted⟩ := kept
    exact ⟨{ entry with state := state, revision := entry.revision + 1, counted := Nat.succ_pos _ },
      { queueRequestId := id.trans encodes.queueRequestId
        operation := operation.trans encodes.operation
        desktopBinding := binding.trans encodes.desktopBinding
        enqueuedAt := enqueued ▸ encodes.enqueuedAt
        expiresAt := expires ▸ encodes.expiresAt
        status := status
        sessionId := sessionId
        turnId := turnId
        failureCode := failureCode
        failureMessage := failureMessage
        revision := by rw [counted, revision] }⟩
  cases move with
  | advanced =>
    exact next .queued _ ⟨rfl, rfl, rfl, rfl, rfl, rfl⟩ status sessionId turnId failureCode
      failureMessage
  | withdrawn reason =>
    rcases reason with rfl | rfl
    · exact next .cancelled _ ⟨rfl, rfl, rfl, rfl, rfl, rfl⟩ rfl sessionId turnId failureCode
        failureMessage
    · exact next .expired _ ⟨rfl, rfl, rfl, rfl, rfl, rfl⟩ rfl sessionId turnId failureCode
        failureMessage
  | admitted session turn =>
    exact next (.admitted session turn) _ ⟨rfl, rfl, rfl, rfl, rfl, rfl⟩ rfl rfl rfl rfl rfl
  | failed failure untouched =>
    refine next (.validationFailed failure) _ ⟨rfl, rfl, rfl, rfl, rfl, rfl⟩ rfl sessionId ?_ rfl rfl
    rcases untouched with none | same
    · exact none
    · exact same.trans turnId

theorem newRow_encodes (timed : record.enqueuedAt < record.expiresAt)
    (enqueued : Rfc3339.format record.enqueuedAt = some enqueuedAt)
    (expires : Rfc3339.format record.expiresAt = some expiresAt) :
    ∃ entry, Encodes (newQueueRow record enqueuedAt expiresAt) entry :=
  ⟨{ queueRequestId := record.queueRequestId
     operation := record.operation
     desktopBinding := record.desktopBinding
     asked := record.sessionId
     enqueuedAt := record.enqueuedAt
     expiresAt := record.expiresAt
     patient := timed
     state := .queued
     revision := 1
     counted := Nat.one_pos },
   ⟨rfl, rfl, rfl, enqueued, expires, rfl, rfl, rfl, rfl, rfl, rfl⟩⟩

theorem queuedOf_length (queue : QueueTable) (leaseKey : String) :
    (queuedOf queue leaseKey).length =
      queue.rows.countP (fun row => row.leaseKey = leaseKey && row.isQueued) :=
  (List.countP_eq_length_filter ..).symm

theorem inserted_depth (rows : after.rows = queue.rows ++ [newQueueRow record enqueuedAt expiresAt])
    (leaseKey : String) :
    (queuedOf after leaseKey).length =
      (queuedOf queue leaseKey).length + if record.leaseKey = leaseKey then 1 else 0 := by
  rw [queuedOf_length, queuedOf_length, rows, List.countP_append]
  by_cases own : record.leaseKey = leaseKey <;>
    simp [newQueueRow, QueueRow.isQueued, own]

theorem step_sound (sound : Sound queue) (step : Step queue after) : Sound after := by
  cases step with
  | inserted record enqueuedAt expiresAt timed enqueued expires _ unused room rows =>
    constructor
    · rw [rows]
      exact forall_mem_concat.mpr ⟨sound.entries, newRow_encodes timed enqueued expires⟩
    · intro a first b second principal operation key
      rw [rows, List.mem_append, List.mem_singleton] at first second
      rcases first with first | rfl <;> rcases second with second | rfl
      · exact sound.once a first b second principal operation key
      · exact absurd ⟨principal, operation, key⟩ (unused a first)
      · exact absurd ⟨principal.symm, operation.symm, key.symm⟩ (unused b second)
      · rfl
    · intro leaseKey
      have before := sound.depth leaseKey
      rw [inserted_depth rows]
      split
      · rename_i own
        rw [← own]
        exact room
      · exact before
  | updated selected change moves rows =>
    have from_before : ∀ later ∈ after.rows, ∃ row ∈ queue.rows,
        patch selected change row = later := by
      intro later member
      rw [rows] at member
      exact List.mem_map.mp member
    constructor
    · intro later member
      obtain ⟨row, there, rfl⟩ := from_before later member
      obtain ⟨entry, encodes⟩ := sound.entries row there
      by_cases hit : selected row = true
      · obtain ⟨waits, move⟩ := moves row there hit
        rw [patch, if_pos hit]
        exact encodes.move waits move
      · rw [patch, if_neg hit]
        exact ⟨entry, encodes⟩
    · intro a first b second principal operation key
      obtain ⟨row, there, rfl⟩ := from_before a first
      obtain ⟨other, there', rfl⟩ := from_before b second
      have kept := (patch_follows (moves row there)).kept
      have kept' := (patch_follows (moves other there')).kept
      rw [kept, kept'] at principal operation key
      rw [sound.once row there other there' principal operation key]
    · intro leaseKey
      refine lt_of_le_of_lt ?_ (sound.depth leaseKey)
      rw [queuedOf_length, queuedOf_length, rows, List.countP_map]
      refine List.countP_mono_left fun row member waits => ?_
      have follows := patch_follows (moves row member)
      simp only [Function.comp_apply, Bool.and_eq_true, decide_eq_true_eq] at waits ⊢
      exact ⟨(follows.leaseKey).symm.trans waits.1, follows.waits waits.2⟩

theorem steps_sound (sound : Sound queue) (steps : Steps queue after) : Sound after := by
  induction steps with
  | refl => exact sound
  | tail _ step ih => exact step_sound ih step

theorem empty_sound : Sound .empty where
  entries := by simp
  once := by simp
  depth := by
    intro leaseKey
    exact Nat.two_pow_pos 16

/-! ## Positions -/

theorem position_small (sound : Sound queue) (row : QueueRow) : queuePosition queue row < u16Size :=
  lt_of_le_of_lt List.countP_le_length (sound.depth row.leaseKey)

theorem mem_queuedOf : row ∈ queuedOf queue leaseKey ↔
    row ∈ queue.rows ∧ row.leaseKey = leaseKey ∧ row.isQueued = true := by
  simp [queuedOf]

theorem mem_fifoOf : row ∈ fifoOf queue leaseKey ↔
    row ∈ queue.rows ∧ row.leaseKey = leaseKey ∧ row.isQueued = true := by
  rw [fifoOf, List.mem_insertionSort, mem_queuedOf]

theorem queuedOf_ids (queue : QueueTable) (leaseKey : String) :
    ((queuedOf queue leaseKey).map (·.queueRequestId)).Nodup :=
  queue.unique.sublist (List.filter_sublist.map _)

/-- No two requests are at one place: they have different identifiers. -/
theorem fifoKey_distinct (queue : QueueTable) (leaseKey : String) :
    ((queuedOf queue leaseKey).map (·.fifoKey)).Nodup := by
  refine (List.Nodup.of_map (fun key : String ×ₗ String => (ofLex key).2) ?_)
  rw [List.map_map]
  exact queuedOf_ids queue leaseKey

theorem fifoOf_ids (queue : QueueTable) (leaseKey : String) :
    ((fifoOf queue leaseKey).map (·.queueRequestId)).Nodup :=
  ((List.perm_insertionSort _ _).map _).nodup_iff.mpr (queuedOf_ids queue leaseKey)

/-- The order of service is strict. -/
theorem fifoOf_strict (queue : QueueTable) (leaseKey : String) :
    (fifoOf queue leaseKey).Pairwise fun a b => a.fifoKey < b.fifoKey :=
  insertionSort_strict (fifoKey_distinct queue leaseKey)

/-- The request at an index of the order of service is at that position. -/
theorem queuePosition_getElem (inside : index < (fifoOf queue leaseKey).length) :
    queuePosition queue (fifoOf queue leaseKey)[index] = index + 1 := by
  have member := mem_fifoOf.mp (List.getElem_mem inside)
  have same := (List.perm_insertionSort (fun a b : QueueRow => a.fifoKey ≤ b.fifoKey)
    (queuedOf queue leaseKey)).countP_eq
      (fun other => other.fifoKey ≤ (fifoOf queue leaseKey)[index].fifoKey)
  rw [queuePosition, member.2.1, ← same]
  exact countP_le_getElem (fifoOf_strict queue leaseKey) index inside

end Satelle.QueueEntries
