import Satelle.AdmissionFlow
import Satelle.QueueRuns

/-! The requests of the queue and the calls that admit them. A row keeps the digest
of a payload of its own request, so the worker calls the slot for the very request it
has read, whatever happened to the files in between. -/
namespace Satelle.QueueAdmissions
open Lib Host QueueChanges QueueHistory QueueRuns StoreHistory
open RequestSlots AdmissionVerdicts AdmissionFlow

variable {Reply : Type} {sha256 : PayloadDigest}

/-! ## Keys -/

/-- The key under which a queued request is admitted. -/
def rowKey (row : QueueRow) : RequestKey := (row.principalRef, row.operation, row.idempotencyKey)

def payloadKey (payload : QueuedTurnPayload) : RequestKey :=
  (payload.principal.principalRef, payload.operation.asStr, payload.idempotencyKey)

/-- Payloads of one digest are of one request. -/
def Identifies (sha256 : PayloadDigest) : Prop :=
  ∀ payload other, sha256 payload = sha256 other → payloadKey payload = payloadKey other

theorem asks_admission {payload : QueuedTurnPayload}
    (asks : payload.asks request = true) : request.isAdmission = true := by
  simp only [QueuedTurnPayload.asks, Bool.and_eq_true, decide_eq_true_eq] at asks
  obtain ⟨⟨_, operation⟩, _⟩ := asks
  cases asked : payload.operation <;> cases own : request.operation <;>
    simp_all [OperationRequest.isAdmission, idempotentOperationToken, TurnQueueOperation.asStr]

theorem follows_rowKey (follows : Follows row later) : rowKey later = rowKey row := by
  rw [follows.kept]
  rfl

/-! ## The store under the queue -/

theorem logged_records (logged : Logged db after) :
    after.idempotencyRecords = db.idempotencyRecords := by
  induction logged with
  | refl => rfl
  | tail _ step ih =>
    obtain ⟨record, inserted⟩ := step
    simp only [insertSafeLog, except_bind_ok] at inserted
    obtain ⟨_, _, _, _, _, _, made⟩ := inserted
    cases made
    exact ih

theorem logged_reachable (logged : Logged db after) (reachable : ReachableStore rfc3339 db) :
    ReachableStore rfc3339 after :=
  later_reachable reachable (logged_later logged) (fun _ _ => id)

/-! ## Rows and payloads -/

/-- A row keeps the digest of a payload of its request. -/
def Sealed (sha256 : PayloadDigest) (row : QueueRow) : Prop :=
  ∃ payload, sha256 payload = row.payloadSha256 ∧ payloadKey payload = rowKey row

theorem follows_sealed (follows : Follows row later) (isSealed : Sealed sha256 row) :
    Sealed sha256 later := by
  obtain ⟨payload, digest, own⟩ := isSealed
  exact ⟨payload, digest.trans (by rw [follows.kept]), own.trans (follows_rowKey follows).symm⟩

/-- The rows after a step were there before, or were enqueued with a payload. -/
theorem perform_origin {host after : QueueHost Reply}
    (performed : host.perform sha256 action = some after) :
    ∀ row ∈ after.queue.rows,
      (∃ before ∈ host.queue.rows, Follows before row) ∨ Sealed sha256 row := by
  have same : after.queue = host.queue → ∀ row ∈ after.queue.rows,
      (∃ before ∈ host.queue.rows, Follows before row) ∨ Sealed sha256 row := by
    intro same row member
    exact .inl ⟨row, same ▸ member, .refl row⟩
  have updated : Updates host.queue after.queue → ∀ row ∈ after.queue.rows,
      (∃ before ∈ host.queue.rows, Follows before row) ∨ Sealed sha256 row :=
    fun updates row member => .inl (updates_origin updates row member)
  cases action with
  | admissions action =>
    obtain ⟨_, _, rfl⟩ := Option.map_eq_some_iff.mp performed
    exact same rfl
  | enqueue payload queueRequestId now config =>
    rcases enqueue_cases performed with rfl | ⟨_, leaseKey, stored, state, _, ran, rfl⟩
    · exact same rfl
    · cases (enqueue_ok ran).1 with
      | inserted enqueuedAt expiresAt _ _ _ _ _ rows =>
        change ∀ row ∈ state.queue.rows, _
        rw [rows]
        exact forall_mem_concat.mpr
          ⟨fun row before => .inl ⟨row, before, .refl row⟩, .inr ⟨payload, rfl, rfl⟩⟩
  | expire | cancel | credentialFailed =>
    cases performed
    rcases transaction_cases host _ with unchanged | ⟨reply, state, ran, made⟩
    · exact same (by rw [unchanged])
    · exact updated (made ▸ serveQueue_updates (by simp) ran)
  | announce leaseKey position clock =>
    rcases announce_cases performed with rfl | ⟨_, _, ran, rfl⟩
    · exact same rfl
    · exact updated (serveQueue_updates (by simp) ran)
  | files files =>
    cases performed
    exact same rfl
  | worker step =>
    rcases work_queue performed with ⟨unchanged, _⟩ | ⟨record, update, now, _, _, _, _, ran, rfl⟩
    · exact same unchanged
    · refine updated (serveQueue_updates ?_ ran)
      cases update <;> simp [QueueTerminalUpdate.call]
  | restart =>
    cases performed
    exact same rfl

/-! ## What the worker presents -/

/-- The call is one that asks for the admission of this request. -/
def Calls (system : System Reply) (id : ThreadId) (key : RequestKey) : Prop :=
  ∃ request token pc, system.threads id = some (.execute request token pc) ∧
    requestKey request = key ∧ request.isAdmission = true

/-- The worker presents the request it has read. -/
structure Presented (sha256 : PayloadDigest) (host : QueueHost Reply) : Prop where
  running : Running host
  isSealed : ∀ row ∈ host.queue.rows, Sealed sha256 row
  checking : ∀ record payload, host.worker = .checking record payload →
    sha256 payload = record.payloadSha256
  admitting : ∀ record id row, host.worker = .admitting record id →
    ReadFrom host.queue record row → Calls host.admissions.system id (rowKey row)

theorem readFrom_unique (first : ReadFrom queue record row) (second : ReadFrom queue record other) :
    row = other :=
  queue.row_unique first.member second.member (first.named.trans second.named.symm)

/-- The row of a record before some steps is the row of it after them. -/
theorem read_before (steps : Steps queue after) (read : ReadFrom after record row)
    (before : ReadFrom queue record old) : Follows old row := by
  obtain ⟨later, isLater, follows⟩ := before.later steps
  exact readFrom_unique isLater read ▸ follows

theorem Calls.stays {system after : System Reply} {id : ThreadId} (calls : Calls system id key)
    (kept : ∀ request token pc, system.threads id = some (.execute request token pc) →
      ∃ pc', after.threads id = some (.execute request token pc')) : Calls after id key := by
  obtain ⟨request, token, pc, there, own, isAdmission⟩ := calls
  obtain ⟨pc', still⟩ := kept request token pc there
  exact ⟨request, token, pc', still, own, isAdmission⟩

/-- The worker asks for the request of the row it has read. -/
theorem asks_rowKey (identifies : Identifies sha256) (isSealed : Sealed sha256 row)
    (read : ReadFrom queue record row) (verified : sha256 payload = record.payloadSha256)
    (asks : payload.asks request = true) : requestKey request = rowKey row := by
  obtain ⟨original, digest, own⟩ := isSealed
  have same : sha256 payload = sha256 original := by
    rw [verified, digest, read.payloadSha256]
  simp only [QueuedTurnPayload.asks, Bool.and_eq_true, decide_eq_true_eq] at asks
  obtain ⟨⟨principal, operation⟩, key⟩ := asks
  rw [← own, ← identifies payload original same]
  simp [requestKey, payloadKey, principal, operation, key]

/-- Every step of the Host keeps what the worker presents. -/
theorem perform_presented {host after : QueueHost Reply} (identifies : Identifies sha256)
    (presented : Presented sha256 host) (performed : host.perform sha256 action = some after) :
    Presented sha256 after := by
  have running := perform_running presented.running performed
  have steps := perform_steps performed
  refine ⟨running, ?_, ?_, ?_⟩
  · intro row member
    rcases perform_origin performed row member with ⟨before, there, follows⟩ | isSealed
    · exact follows_sealed follows (presented.isSealed before there)
    · exact isSealed
  · intro record payload isChecking
    cases performed_of_perform performed with
    | admissions => exact presented.checking record payload isChecking
    | restarted => cases isChecking
    | quiet _ quiet => exact presented.checking record payload (quiet.worker ▸ isChecking)
    | worker isAt worked =>
      cases worked with
      | read verified =>
        cases isChecking
        exact verified
      | received _ _ heard =>
        rcases received_cases heard with rfl | ⟨_, rfl⟩
        · cases isChecking
        · cases isChecking
      | started | looked | took | unread | refused | called | finished | unfinished | stopped
      | postponed => cases isChecking
  · intro record id row isAdmitting read
    cases performed_of_perform performed with
    | admissions moved =>
      exact (presented.admitting record id row isAdmitting read).stays
        fun _ _ _ there => perform_kept moved there
    | restarted => cases isAdmitting
    | quiet _ quiet =>
      rw [quiet.worker] at isAdmitting
      obtain ⟨before, wasRead⟩ := presented.running.held record (by rw [isAdmitting]; rfl)
      rw [follows_rowKey (read_before steps read wasRead), quiet.system]
      exact presented.admitting record id before isAdmitting wasRead
    | worker isAt worked =>
      cases worked with
      | called own asks made =>
        cases isAdmitting
        obtain ⟨_, there, _⟩ := within_call made
        exact ⟨_, _, _, there, asks_rowKey identifies (presented.isSealed row read.member) read
          (presented.checking _ _ isAt) asks, asks_admission asks⟩
      | received _ _ heard =>
        rcases received_cases heard with rfl | ⟨_, rfl⟩
        · cases isAdmitting
        · cases isAdmitting
      | started | looked | took | read | unread | refused | finished | unfinished | stopped
      | postponed => cases isAdmitting

theorem new_presented (store : Database) : Presented sha256 (.new store : QueueHost Reply) where
  running := new_running store
  isSealed := by
    intro row member
    cases member
  checking := by
    intro record payload isChecking
    cases isChecking
  admitting := by
    intro record id row isAdmitting
    cases isAdmitting

/-! A digest that keeps what identifies a request: the texts one after the other,
each character with the mark of its text. -/

def marked (payload : QueuedTurnPayload) : List (Char × Char) :=
  payload.operation.asStr.toList.map ('o', ·) ++
    payload.principal.principalRef.toList.map ('p', ·) ++
    payload.idempotencyKey.toList.map ('k', ·)

def sealingSha256 : PayloadDigest := fun payload =>
  String.ofList ((marked payload).flatMap fun (mark, char) => [mark, char])

theorem flatMap_pairs_inj {first second : List (Char × Char)}
    (same : (first.flatMap fun (mark, char) => [mark, char]) =
      second.flatMap fun (mark, char) => [mark, char]) : first = second := by
  induction first generalizing second with
  | nil =>
    cases second with
    | nil => rfl
    | cons => cases same
  | cons pair rest ih =>
    cases second with
    | nil => cases same
    | cons other others =>
      simp only [List.flatMap_cons, List.cons_append, List.nil_append, List.cons.injEq] at same
      obtain ⟨mark, char, same⟩ := same
      rw [ih same, Prod.ext mark char]

theorem sealingSha256_identifies : Identifies sealingSha256 := by
  intro payload other same
  have pairs : marked payload = marked other :=
    flatMap_pairs_inj (String.ofList_injective same)
  have texts : ∀ mark, ((marked payload).filter (·.1 = mark)).map (·.2) =
      ((marked other).filter (·.1 = mark)).map (·.2) := fun mark => by rw [pairs]
  have operation := texts 'o'
  have principal := texts 'p'
  have key := texts 'k'
  simp [marked, List.filter_append, List.filter_map, Function.comp_def] at operation principal key
  simp only [payloadKey, String.toList_injective operation, String.toList_injective principal,
    String.toList_injective key]

end Satelle.QueueAdmissions
