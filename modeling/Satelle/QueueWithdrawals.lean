import Satelle.QueueAdmissions
import Satelle.QueueRevisions
import Satelle.AdmissionLinearization

/-! Requests that were withdrawn. The worker reads a request, admits its Turn under
another lock and only then updates the request, so a withdrawal in between is not
seen. Without one, and without a crash there, a withdrawn request has no Turn. -/
namespace Satelle.QueueWithdrawals
open Lib Host QueueChanges QueueEntries QueueHistory QueueRuns
open AdmissionVerdicts AdmissionFlow QueueAdmissions
open RequestSlots (RequestKey)
open StoreRefinement (emptyStore emptyStore_fresh seconds)
open SessionLifecycle (sampleTurnId)
open AdmissionLinearization (sampleAdmission admitting)
open QueueRevisions (sampleEnqueue performAll run_of_performAll)

variable {Reply : Type} {sha256 : PayloadDigest}

variable {host after : QueueHost Reply}

/-- The store holds an admission under the key. -/
def Admitted (db : Database) (key : RequestKey) : Prop :=
  db.idempotencyRecords.lookup key ≠ none

def Withdrawn (row : QueueRow) : Prop :=
  row.status = "cancelled" ∨ row.status = "expired" ∨ row.status = "validation_failed"

/-- The worker has the request in hand. -/
def holds (host : QueueHost Reply) (key : RequestKey) : Bool :=
  host.worker.held.any fun record => host.queue.rows.any fun row =>
    row.queueRequestId = record.status.queueRequestId.text && rowKey row = key

def waits (queue : QueueTable) (key : RequestKey) : Bool :=
  queue.rows.any fun row => rowKey row = key && row.isQueued

/-- The worker is about to say that the request is admitted. -/
def admits : WorkerPc → Bool
  | .finishing _ (.admitted _ _) => true
  | _ => false

/-- A step that does not come between the worker and the request it has in hand:
nobody else takes the request from the queue, the daemon does not stop, the final
update is made, the call does not fail once the Turn is recorded, and retention keeps
the record. No one else presents the request for admission. -/
structure Undisturbed (key : RequestKey) (host : QueueHost Reply) (action : QueueAction Reply)
    (after : QueueHost Reply) : Prop where
  queued : (∀ step, action ≠ .worker step) → holds host key = true →
    waits host.queue key = true → waits after.queue key = true
  alive : action = .restart → holds host key = false
  finished : (∃ now, action = .worker (.finish now)) → holds host key = true →
    waits after.queue key = false
  answered : action = .worker .receive → holds host key = true →
    Admitted host.admissions.store key → admits after.worker = true
  retained : holds host key = true → Admitted host.admissions.store key →
    Admitted after.admissions.store key
  called : ∀ id request token pc, action = .admissions (.call id (.execute request token pc)) →
    requestKey request ≠ key
  served : (∃ call, action = .admissions (.serve call)) →
    Admitted after.admissions.store key → Admitted host.admissions.store key

def UndisturbedRun (sha256 : PayloadDigest) (key : RequestKey) :
    QueueHost Reply → QueueHost Reply → Prop :=
  Relation.ReflTransGen fun host after => ∃ action, host.perform sha256 action = some after ∧
    Undisturbed key host action after

/-! ## The row of a key -/

theorem key_unique (sound : Sound queue) (first : row ∈ queue.rows) (second : other ∈ queue.rows)
    (same : rowKey row = rowKey other) : row = other := by
  simp only [rowKey, Prod.mk.injEq] at same
  obtain ⟨principal, operation, key⟩ := same
  exact sound.once row first other second principal operation key

theorem waits_iff : waits queue key = true ↔
    ∃ row ∈ queue.rows, rowKey row = key ∧ row.isQueued = true := by
  simp [waits, List.any_eq_true]

/-- The worker has the request in hand that it has read. -/
theorem holds_iff (running : Running host) :
    holds host key = true ↔ ∃ record row, host.worker.held = some record ∧
      ReadFrom host.queue record row ∧ rowKey row = key := by
  simp only [holds, Option.any_eq_true, List.any_eq_true, Bool.and_eq_true, decide_eq_true_eq]
  constructor
  · rintro ⟨record, held, row, member, named, own⟩
    obtain ⟨read, isRead⟩ := running.held record held
    have same : read = row := host.queue.row_unique isRead.member member
      (isRead.named.trans named.symm)
    exact ⟨record, row, held, same ▸ isRead, own⟩
  · rintro ⟨record, row, held, read, own⟩
    exact ⟨record, held, row, read.member, read.named, own⟩

/-- A request that is in hand stays in hand while the worker does nothing. -/
theorem holds_same (running : Running host) (later : Running after)
    (steps : Steps host.queue after.queue) (worker : after.worker = host.worker) :
    holds after key = holds host key := by
  have same : holds after key = true ↔ holds host key = true := by
    rw [holds_iff running, holds_iff later, worker]
    constructor
    · rintro ⟨record, row, held, read, own⟩
      obtain ⟨before, wasRead⟩ := running.held record held
      exact ⟨record, before, held, wasRead,
        (follows_rowKey (read_before steps read wasRead)).symm.trans own⟩
    · rintro ⟨record, row, held, read, own⟩
      obtain ⟨next, isRead, follows⟩ := read.later steps
      exact ⟨record, next, held, isRead, (follows_rowKey follows).trans own⟩
  exact Bool.eq_iff_iff.mpr same

/-! ## What holds of a request that is not disturbed -/

/-- The request is admitted and the worker is about to say so, or has said so. -/
def Engaged (host : QueueHost Reply) (key : RequestKey) : Prop :=
  (holds host key = true ∧ (((∃ record id, host.worker = .admitting record id) ∧
    Admitted host.admissions.store key) ∨ admits host.worker = true)) ∨
  ∃ row ∈ host.queue.rows, rowKey row = key ∧ row.status = "admitted"

structure Guarded (sha256 : PayloadDigest) (key : RequestKey) (host : QueueHost Reply) : Prop where
  presented : Presented sha256 host
  store : ReachableStore rfc3339 host.admissions.store
  prepared : Prepared host.admissions
  /-- The worker waits for every call for the request. -/
  calls : ∀ id request token pc, host.admissions.system.threads id =
    some (.execute request token pc) → requestKey request = key → past pc = false →
    ∃ record, host.worker = .admitting record id
  queued : holds host key = true → waits host.queue key = true
  engaged : Admitted host.admissions.store key → Engaged host key

/-- An admitted request stays admitted. -/
theorem admitted_later {after} (steps : Steps queue after)
    (known : ∃ row ∈ queue.rows, rowKey row = key ∧ row.status = "admitted") :
    ∃ row ∈ after.rows, rowKey row = key ∧ row.status = "admitted" := by
  obtain ⟨row, member, own, status⟩ := known
  obtain ⟨later, there, follows⟩ := steps_follow steps row member
  have settled : row.isQueued = false := by simp [QueueRow.isQueued, status]
  rw [follows.settled settled] at there
  exact ⟨row, there, own, status⟩

/-- The worker is not with its call, nor about to say that it was admitted. -/
def Away (pc : WorkerPc) : Prop := (∀ record id, pc ≠ .admitting record id) ∧ admits pc = false

theorem Engaged.said (engaged : Engaged host key) (away : Away host.worker) :
    ∃ row ∈ host.queue.rows, rowKey row = key ∧ row.status = "admitted" := by
  rcases engaged with ⟨_, ⟨⟨record, id, isAt⟩, _⟩ | saying⟩ | said
  · exact absurd isAt (away.1 record id)
  · rw [away.2] at saying
    cases saying
  · exact said

/-- A step of the worker that neither calls the slot nor updates the queue. -/
theorem Guarded.goes (guarded : Guarded sha256 key host)
    (presented : Presented sha256 (host.goes next))
    (uncalled : ∀ record id, host.worker ≠ .admitting record id)
    (said : Engaged host key → ∃ row ∈ host.queue.rows, rowKey row = key ∧ row.status = "admitted")
    (queued : holds (host.goes next) key = true → waits host.queue key = true) :
    Guarded sha256 key (host.goes next) ∧ (Engaged host key → Engaged (host.goes next) key) := by
  refine ⟨⟨presented, guarded.store, guarded.prepared, ?_, queued, fun admitted =>
    .inr (said (guarded.engaged admitted))⟩, fun engaged => .inr (said engaged)⟩
  intro id request token pc there own running
  obtain ⟨record, isAt⟩ := guarded.calls id request token pc there own running
  exact absurd isAt (uncalled record id)

/-- A step that concerns neither the worker nor the calls. -/
theorem Guarded.quiet (guarded : Guarded sha256 key host) (presented : Presented sha256 after)
    (quiet : Quiet host after)
    (kept : holds host key = true → waits host.queue key = true → waits after.queue key = true) :
    Guarded sha256 key after ∧ (Engaged host key → Engaged after key) := by
  have inHand : holds after key = holds host key :=
    holds_same guarded.presented.running presented.running quiet.queue quiet.worker
  have records : Admitted after.admissions.store key ↔ Admitted host.admissions.store key := by
    rw [Admitted, Admitted, logged_records quiet.store]
  have engaged : Engaged host key → Engaged after key := by
    rintro (⟨held, called | saying⟩ | said)
    · refine .inl ⟨inHand.trans held, .inl ⟨?_, records.mpr called.2⟩⟩
      rw [quiet.worker]
      exact called.1
    · exact .inl ⟨inHand.trans held, .inr (quiet.worker ▸ saying)⟩
    · exact .inr (admitted_later quiet.queue said)
  refine ⟨⟨presented, logged_reachable quiet.store guarded.store, ?_, ?_, ?_, ?_⟩, engaged⟩
  · refine ⟨?_, ?_⟩
    · rw [quiet.system, quiet.operations]
      exact guarded.prepared.unused
    · rw [quiet.system, quiet.operations]
      exact guarded.prepared.presents
  · rw [quiet.system, quiet.worker]
    exact guarded.calls
  · intro held
    rw [inHand] at held
    exact kept held (guarded.queued held)
  · exact fun admitted => engaged (guarded.engaged (records.mp admitted))

/-- A step of the calls, or of anyone else who uses the store. -/
theorem Guarded.admissions {admissions : AdmissionHost Reply} (guarded : Guarded sha256 key host)
    (presented : Presented sha256 { host with admissions := admissions })
    (moved : host.admissions.perform rfc3339 action = some admissions)
    (undisturbed : Undisturbed key host (.admissions action)
      { host with admissions := admissions }) :
    Guarded sha256 key { host with admissions := admissions } ∧
      (Engaged host key → Engaged { host with admissions := admissions } key) := by
  have engaged : Engaged host key → Engaged { host with admissions := admissions } key := by
    rintro (⟨held, called | saying⟩ | said)
    · exact .inl ⟨held, .inl ⟨called.1, undisturbed.retained held called.2⟩⟩
    · exact .inl ⟨held, .inr saying⟩
    · exact .inr said
  refine ⟨⟨presented, ?_, perform_prepared guarded.prepared moved, ?_, guarded.queued, ?_⟩, engaged⟩
  · rw [(perform_moved moved).store]
    exact stored_reachable guarded.store _
  · intro id request token pc there own running
    rcases perform_before moved there with ⟨pc', before, still⟩ | made
    · refine guarded.calls id request token pc' before own ?_
      by_contra isOver
      have same := still (Bool.eq_true_of_not_eq_false isOver)
      rw [same] at running
      exact isOver running
    · exact absurd own (undisturbed.called id request token pc (by rw [made]))
  · intro admitted
    by_cases before : Admitted host.admissions.store key
    · exact engaged (guarded.engaged before)
    · rcases perform_creates guarded.prepared guarded.store moved (not_not.mp before) admitted with
        ⟨call, made⟩ | ⟨id, request, token, entry, there, own⟩
      · exact absurd (undisturbed.served ⟨call, by rw [made]⟩ admitted) before
      · -- the operation is that of the call the worker waits for
        obtain ⟨record, isAt⟩ := guarded.calls id request token _ there own rfl
        obtain ⟨row, read⟩ := guarded.presented.running.held record (by rw [isAt]; rfl)
        obtain ⟨asked, _, _, isCall, isKey, _⟩ :=
          guarded.presented.admitting record id row isAt read
        cases there.symm.trans isCall
        have held : holds host key = true :=
          (holds_iff guarded.presented.running).mpr
            ⟨record, row, by rw [isAt]; rfl, read, isKey.symm.trans own⟩
        exact .inl ⟨held, .inl ⟨⟨record, id, isAt⟩, admitted⟩⟩

/-- The update of a request that still waits. -/
theorem finished_row {state after : QueueStore} {update : QueueTerminalUpdate}
    (ran : serveQueue state (update.call queueRequestId now) = (.ok reply, after))
    (member : row ∈ state.queue.rows) (named : row.queueRequestId = queueRequestId.text)
    (queued : row.isQueued = true) :
    { update.change row with stateRevision := row.stateRevision + 1 } ∈ after.queue.rows := by
  rw [updateQueued_ok (finished_queue ran)]
  refine List.mem_map.mpr ⟨row, member, ?_⟩
  rw [patch, if_pos]
  simp [QueueRow.waits, queued, named]

theorem holds_goes (same : next.held = host.worker.held) :
    holds (host.goes next) key = holds host key := by
  unfold holds QueueHost.goes
  rw [same]

theorem holds_nothing (nothing : host.worker.held = none) : holds host key = false := by
  unfold holds
  rw [nothing]
  rfl

/-- A call whose result is there is over. -/
theorem over_of_returned (returned : pc.returnedResult = some result) :
    past pc = true := by
  cases pc <;> first | rfl | cases returned

/-- A step of the worker. -/
theorem Guarded.worked (guarded : Guarded sha256 key host) (presented : Presented sha256 after)
    (isAt : host.worker = pc) (worked : Worked sha256 host pc step after)
    (undisturbed : Undisturbed key host (.worker step) after) :
    Guarded sha256 key after ∧ (Engaged host key → Engaged after key) := by
  have nothing : ∀ {next}, next.held = none → holds (host.goes next) key = true →
      waits host.queue key = true := by
    intro next empty held
    have left : holds (host.goes next) key = false := holds_nothing empty
    rw [left] at held
    cases held
  have same : ∀ {next}, next.held = pc.held → holds (host.goes next) key = true →
      waits host.queue key = true := by
    intro next still held
    rw [holds_goes (still.trans (by rw [isAt]))] at held
    exact guarded.queued held
  have goes {next} (away : Away pc) (presented : Presented sha256 (host.goes next)) :=
    guarded.goes presented (isAt ▸ away.1) fun engaged => engaged.said (isAt ▸ away)
  cases worked with
  | started | stopped | postponed => exact goes ⟨by simp, rfl⟩ presented (nothing rfl)
  | took | read | unread | refused => exact goes ⟨by simp, rfl⟩ presented (same rfl)
  | looked considered =>
    refine goes ⟨by simp, rfl⟩ presented fun held => ?_
    obtain ⟨record, row, isNext, read, own⟩ := (holds_iff presented.running).mp held
    cases isNext
    rcases considerBinding_read guarded.presented.running.sound considered with
      before | ⟨first, isRead, queued⟩
    · refine guarded.queued ((holds_iff guarded.presented.running).mpr ⟨record, row, ?_, read, own⟩)
      rw [isAt]
      exact before
    · rw [readFrom_unique isRead read] at queued
      exact waits_iff.mpr ⟨row, read.member, own, queued⟩
  | @called asked askedToken admissions record payload own asks made =>
    have away : Away host.worker := by
      rw [isAt]
      exact ⟨by simp, rfl⟩
    have moved : host.admissions.perform rfc3339 (.call own _) = some _ := made
    obtain ⟨_, there, others⟩ := within_call made
    have engaged : Engaged host key →
        Engaged { host with admissions := admissions, worker := .admitting record own } key :=
      fun engaged => .inr (engaged.said away)
    refine ⟨⟨presented, ?_, perform_prepared guarded.prepared moved, ?_, ?_, ?_⟩, engaged⟩
    · rw [(perform_moved moved).store]
      exact stored_reachable guarded.store _
    · intro id request token pc isThread isKey running
      by_cases isOwn : id = own
      · exact ⟨_, by rw [isOwn]⟩
      · rw [others id isOwn] at isThread
        obtain ⟨record, before⟩ := guarded.calls id request token pc isThread isKey running
        exact absurd before (away.1 record id)
    · intro held
      refine guarded.queued ?_
      rw [← held]
      unfold holds
      rw [isAt]
      rfl
    · intro admitted
      have records := (within_store made).1
      change Admitted _ key at admitted
      rw [records] at admitted
      exact engaged (guarded.engaged admitted)
  | @received asked askedToken place result record next id there returned heard =>
    have engaged : Engaged host key → Engaged (host.goes next) key := by
      rintro (⟨held, ⟨_, admitted⟩ | saying⟩ | said)
      · have saying := undisturbed.answered rfl held admitted
        refine .inl ⟨?_, .inr saying⟩
        rcases received_cases heard with rfl | ⟨update, rfl⟩
        · cases saying
        · rwa [holds_goes (by rw [isAt]; rfl)]
      · rw [isAt] at saying
        cases saying
      · exact .inr said
    refine ⟨⟨presented, guarded.store, guarded.prepared, ?_, ?_, ?_⟩, engaged⟩
    · intro other request token pc isThread isKey running
      obtain ⟨_, before⟩ := guarded.calls other request token pc isThread isKey running
      rw [isAt] at before
      cases before
      cases there.symm.trans isThread
      rw [over_of_returned returned] at running
      cases running
    · rcases received_cases heard with rfl | ⟨update, rfl⟩
      · exact nothing rfl
      · exact same rfl
    · exact fun admitted => engaged (guarded.engaged admitted)
  | @finished state reply record update now ran =>
    have steps : Steps host.queue state.queue := serve_steps _ (by cases update <;> trivial) ran
    have logged := (served_of ran).logged
    have engaged : Engaged host key →
        Engaged ((host.committed state record.movedUp).goes .idle) key := by
      rintro (⟨held, ⟨⟨_, _, isCall⟩, _⟩ | saying⟩ | said)
      · rw [isAt] at isCall
        cases isCall
      · -- the request still waits, so the update is made
        obtain ⟨own, row, isHeld, read, isKey⟩ := (holds_iff guarded.presented.running).mp held
        obtain ⟨other, there, sameKey, queued⟩ := waits_iff.mp (guarded.queued held)
        rw [key_unique guarded.presented.running.sound there read.member
          (sameKey.trans isKey.symm)] at queued
        rw [isAt] at isHeld saying
        cases isHeld
        cases update with
        | admitted sessionId turnId =>
          exact .inr ⟨_, finished_row ran read.member read.named queued, isKey, rfl⟩
        | validationFailed failure => cases saying
      · exact .inr (admitted_later steps said)
    refine ⟨⟨presented, logged_reachable logged guarded.store, ?_, ?_, ?_, ?_⟩, engaged⟩
    · exact ⟨guarded.prepared.unused, guarded.prepared.presents⟩
    · intro id request token pc isThread isKey running
      obtain ⟨_, before⟩ := guarded.calls id request token pc isThread isKey running
      rw [isAt] at before
      cases before
    · intro held
      cases held
    · intro admitted
      refine engaged (guarded.engaged ?_)
      change state.store.idempotencyRecords.lookup key ≠ none at admitted
      rwa [logged_records logged] at admitted
  | unfinished =>
    have left : holds host key = false := by
      by_contra held
      have held := Bool.eq_true_of_not_eq_false held
      have gone : waits host.queue key = false := undisturbed.finished ⟨_, rfl⟩ held
      rw [guarded.queued held] at gone
      cases gone
    refine guarded.goes presented (by simp [isAt]) ?_ (nothing rfl)
    rintro (⟨held, _⟩ | said)
    · rw [left] at held
      cases held
    · exact said

/-- Every undisturbed step of the Host. -/
theorem perform_guarded (identifies : Identifies sha256) (guarded : Guarded sha256 key host)
    (performed : host.perform sha256 action = some after)
    (undisturbed : Undisturbed key host action after) :
    Guarded sha256 key after ∧ (Engaged host key → Engaged after key) := by
  have presented := perform_presented identifies guarded.presented performed
  cases performed_of_perform performed with
  | admissions moved => exact guarded.admissions presented moved undisturbed
  | worker isAt worked => exact guarded.worked presented isAt worked undisturbed
  | quiet others quiet => exact guarded.quiet presented quiet (undisturbed.queued others.1)
  | restarted =>
    have left := undisturbed.alive rfl
    have engaged : Engaged host key → Engaged ({ host with
        admissions := .new host.admissions.store, worker := .idle } : QueueHost Reply) key := by
      rintro (⟨held, _⟩ | said)
      · rw [left] at held
        cases held
      · exact .inr said
    refine ⟨⟨presented, guarded.store, new_prepared _, ?_, ?_, ?_⟩, engaged⟩
    · intro id request token pc there
      cases there
    · intro held
      cases held
    · exact fun admitted => engaged (guarded.engaged admitted)

theorem run_guarded (identifies : Identifies sha256) (guarded : Guarded sha256 key host)
    (run : UndisturbedRun sha256 key host after) :
    Guarded sha256 key after ∧ (Engaged host key → Engaged after key) := by
  induction run with
  | refl => exact ⟨guarded, id⟩
  | tail _ step ih =>
    obtain ⟨action, performed, undisturbed⟩ := step
    obtain ⟨later, engaged⟩ := perform_guarded identifies ih.1 performed undisturbed
    exact ⟨later, fun held => engaged (ih.2 held)⟩

theorem new_guarded (fresh : Fresh start) (isAdmission : key.2.1 = "run" ∨ key.2.1 = "steer") :
    Guarded sha256 key (.new start : QueueHost Reply) where
  presented := new_presented start
  store := ⟨start, fresh, .refl⟩
  prepared := new_prepared start
  calls := by
    intro id request token pc there
    cases there
  queued := by
    intro held
    cases held
  engaged := by
    intro admitted
    obtain ⟨record, found⟩ := Option.ne_none_iff_exists'.mp admitted
    obtain ⟨member, own⟩ := Table.lookup_eq_some.mp found
    obtain ⟨_, notRun, notSteer, _⟩ := fresh.records record member
    have operation : record.operation = key.2.1 := by rw [← own]; rfl
    rw [operation] at notRun notSteer
    exact absurd isAdmission (by simp [notRun, notSteer])

/-- An engaged request was not withdrawn. -/
theorem Guarded.unadmitted (guarded : Guarded sha256 key host) (member : row ∈ host.queue.rows)
    (own : rowKey row = key) (withdrawn : Withdrawn row) : ¬Engaged host key := by
  have sound := guarded.presented.running.sound
  rintro (⟨held, _⟩ | ⟨other, there, same, status⟩)
  · obtain ⟨other, there, same, queued⟩ := waits_iff.mp (guarded.queued held)
    rw [key_unique sound there member (same.trans own.symm)] at queued
    rcases withdrawn with status | status | status <;> simp [QueueRow.isQueued, status] at queued
  · rw [key_unique sound there member (same.trans own.symm)] at status
    rcases withdrawn with gone | gone | gone <;> simp [gone] at status

theorem withdrawn_later {after} (steps : Steps queue after)
    (known : ∃ row ∈ queue.rows, rowKey row = key ∧ Withdrawn row) :
    ∃ row ∈ after.rows, rowKey row = key ∧ Withdrawn row := by
  obtain ⟨row, member, own, withdrawn⟩ := known
  obtain ⟨later, there, follows⟩ := steps_follow steps row member
  have settled : row.isQueued = false := by
    rcases withdrawn with status | status | status <;> simp [QueueRow.isQueued, status]
  rw [follows.settled settled] at there
  exact ⟨row, there, own, withdrawn⟩

theorem UndisturbedRun.steps (run : UndisturbedRun sha256 key host after) :
    Steps host.queue after.queue := by
  induction run with
  | refl => exact .refl
  | tail _ step ih =>
    obtain ⟨action, performed, _⟩ := step
    exact ih.trans (perform_steps performed)

/-- A row of the queue is that of a run or a steer. -/
theorem row_operation (sound : Sound queue) (member : row ∈ queue.rows) :
    (rowKey row).2.1 = "run" ∨ (rowKey row).2.1 = "steer" := by
  obtain ⟨entry, encodes⟩ := sound.entries row member
  change row.operation = _ ∨ row.operation = _
  rw [encodes.operation]
  cases entry.operation
  · exact .inl rfl
  · exact .inr rfl

/-- Where a cancellation is answered as such, the request is cancelled. -/
theorem cancel_answered {state after : QueueStore}
    (sound : Sound state.queue)
    (ran : serveQueue state (.cancel principalRef queueRequestId now) =
      (.ok (.cancelled (some cancellation)), after))
    (answered : queueCancelResult queueRequestId earlier cancellation.record =
      .cancelled queueRequestId) :
    ∃ row ∈ after.queue.rows, row.queueRequestId = queueRequestId.text ∧
      row.status = "cancelled" := by
  have cancelled : cancellation.record.status.status = .cancelled := by
    unfold queueCancelResult at answered
    split at answered
    · rename_i both
      exact both.2
    · cases answered
  have later : Sound after.queue := steps_sound sound
    (serve_steps (.cancel principalRef queueRequestId now) trivial ran)
  have read : loadQueueRecord after.queue principalRef queueRequestId =
      .ok (some cancellation.record) := by
    cases (served_of ran).done with
    | kept read | cancelled _ _ _ read => exact read
  obtain ⟨row, member, named, decoded⟩ := loadQueueRecord_ok read
  obtain ⟨entry, encodes, isEntry⟩ := decode_sound later member
  rw [isEntry] at decoded
  have isRecord := Except.ok.inj decoded
  rw [← isRecord] at cancelled
  refine ⟨row, member, named, ?_⟩
  rw [encodes.status]
  have shown : entry.state.status = .cancelled := cancelled
  rw [shown]
  rfl

/-- A withdrawn request has no Turn, neither before nor after it was withdrawn, from a
fresh store and through any interleaving of the worker with withdrawals, restarts and
all other uses of the store that leaves the worker and the request it has in hand
undisturbed. Let one state come before another: if the request is withdrawn in either,
there is no admission of it in either. A cancellation that is answered as such has
withdrawn the request, in any case. -/
theorem withdrawn_never_admitted (sha256 : PayloadDigest) (identifies : Identifies sha256)
    (key : RequestKey) (start : Database) (fresh : Fresh start) (first second : QueueHost Reply)
    (before : UndisturbedRun sha256 key (.new start) first)
    (after : UndisturbedRun sha256 key first second) :
    (∀ row ∈ first.queue.rows, rowKey row = key → Withdrawn row →
      ¬Admitted first.admissions.store key ∧ ¬Admitted second.admissions.store key) ∧
    (∀ row ∈ second.queue.rows, rowKey row = key → Withdrawn row →
      ¬Admitted first.admissions.store key ∧ ¬Admitted second.admissions.store key) ∧
    (∀ principalRef queueRequestId now earlier cancellation state,
      serveQueue first.state (.cancel principalRef queueRequestId now) =
        (.ok (.cancelled (some cancellation)), state) →
      queueCancelResult queueRequestId earlier cancellation.record = .cancelled queueRequestId →
      ∃ row ∈ state.queue.rows, row.queueRequestId = queueRequestId.text ∧ Withdrawn row) := by
  have run : QueueRun sha256 (.new start) first :=
    Relation.ReflTransGen.mono (fun _ _ ⟨action, performed, _⟩ => ⟨action, performed⟩) _ _ before
  have running := run_running (new_running start) run
  have sound : Sound second.queue := steps_sound running.sound after.steps
  have atSecond : ∀ row ∈ second.queue.rows, rowKey row = key → Withdrawn row →
      ¬Admitted first.admissions.store key ∧ ¬Admitted second.admissions.store key := by
    intro row member own withdrawn
    have isAdmission := own ▸ row_operation sound member
    obtain ⟨early, _⟩ := run_guarded identifies (new_guarded fresh isAdmission) before
    obtain ⟨late, engaged⟩ := run_guarded identifies early after
    have unengaged := late.unadmitted member own withdrawn
    exact ⟨fun admitted => unengaged (engaged (early.engaged admitted)),
      fun admitted => unengaged (late.engaged admitted)⟩
  refine ⟨?_, atSecond, ?_⟩
  · intro row member own withdrawn
    obtain ⟨later, there, sameKey, still⟩ :=
      withdrawn_later after.steps ⟨row, member, own, withdrawn⟩
    exact atSecond later there sameKey still
  · intro principalRef queueRequestId now earlier cancellation state ran answered
    obtain ⟨row, member, named, status⟩ := cancel_answered running.sound ran answered
    exact ⟨row, member, named, .inl status⟩

/-! One request, its worker, and a client who cancels it. -/

/-- The worker reads the request. -/
def reading : List (QueueAction Unit) :=
  [.worker .start, .worker (.look "desktop"), .worker .take, .worker .read]

/-- It admits the request and updates it. -/
def admittingQueued : List (QueueAction Unit) :=
  .worker (.call 1 0 sampleAdmission) :: ((admitting 0).drop 1).map .admissions ++
    [.worker .receive, .worker (.finish (seconds 0))]

def sampleCancelQueued : QueueCall := .cancel "principal-test" sampleQueueRequestId (seconds 0)

/-- The record that was read, and the cancellation of it that was reported. -/
def reportedCancellation (read : Except StorageError (Option StoredQueueRecord))
    (replied : Except StorageError QueueReply) : Option (StoredQueueRecord × QueueCancellation) :=
  match read, replied with
  | .ok (some earlier), .ok (.cancelled (some cancellation)) => some (earlier, cancellation)
  | _, _ => none

theorem reportedCancellation_eq_some
    (reported : reportedCancellation found replied = some (earlier, cancellation)) :
    found = .ok (some earlier) ∧ replied = .ok (.cancelled (some cancellation)) := by
  unfold reportedCancellation at reported
  split at reported <;> cases reported
  exact ⟨rfl, rfl⟩

/-- The request is cancelled after the worker has read it. The cancellation is answered
as such, and then the Turn is admitted. -/
theorem cancelled_then_admitted_turn :
    ∃ (before after : QueueHost Unit) (earlier : StoredQueueRecord)
      (cancellation : QueueCancellation) (state : QueueStore),
      Identifies sealingSha256 ∧ Fresh emptyStore ∧
      QueueRun sealingSha256 (.new emptyStore) before ∧
      loadQueueRecord before.queue "principal-test" sampleQueueRequestId = .ok (some earlier) ∧
      serveQueue before.state sampleCancelQueued =
        (.ok (.cancelled (some cancellation)), state) ∧
      queueCancelResult sampleQueueRequestId earlier cancellation.record =
        .cancelled sampleQueueRequestId ∧
      QueueRun sealingSha256 (before.transaction sampleCancelQueued) after ∧
      (∃ row ∈ after.queue.rows, rowKey row = requestKey sampleAdmission ∧ Withdrawn row) ∧
      Admitted after.admissions.store (requestKey sampleAdmission) ∧
      after.admissions.store.turns.rows.map (·.turnId) = [sampleTurnId.text] := by
  have ran : ((performAll sealingSha256 (.new emptyStore)
      (sampleEnqueue sampleQueueRequestId "request-test" 0 :: reading)).bind fun before =>
      (reportedCancellation (loadQueueRecord before.queue "principal-test" sampleQueueRequestId)
        (serveQueue before.state sampleCancelQueued).1).bind fun reported =>
      (performAll sealingSha256 (before.transaction sampleCancelQueued) admittingQueued).map
        fun after => decide (
          queueCancelResult sampleQueueRequestId reported.1 reported.2.record =
            .cancelled sampleQueueRequestId ∧
          (∃ row ∈ after.queue.rows, rowKey row = requestKey sampleAdmission ∧
            row.status = "cancelled") ∧
          (after.admissions.store.idempotencyRecords.lookup (requestKey sampleAdmission)).isSome ∧
          after.admissions.store.turns.rows.map (·.turnId) = [sampleTurnId.text])) = some true := by
    decide +kernel
  obtain ⟨before, enqueued, ran⟩ := Option.bind_eq_some_iff.mp ran
  obtain ⟨⟨earlier, cancellation⟩, reported, ran⟩ := Option.bind_eq_some_iff.mp ran
  obtain ⟨read, cancelled⟩ := reportedCancellation_eq_some reported
  obtain ⟨after, admitted, all⟩ := Option.map_eq_some_iff.mp ran
  obtain ⟨answered, ⟨row, member, own, status⟩, recorded, turns⟩ := of_decide_eq_true all
  exact ⟨before, after, earlier, cancellation, _, sealingSha256_identifies, emptyStore_fresh,
    run_of_performAll enqueued, read, Prod.ext cancelled rfl, answered,
    run_of_performAll admitted, ⟨row, member, own, .inl status⟩,
    Option.isSome_iff_ne_none.mp recorded, turns⟩

/-- The actions one after the other, as long as nothing is in hand and only the queue
is used. -/
def idleAll (sha256 : PayloadDigest) (host : QueueHost Reply) :
    List (QueueAction Reply) → Option (QueueHost Reply)
  | [] => some host
  | .admissions _ :: _ => none
  | action :: rest =>
    if host.worker.held = none then (host.perform sha256 action).bind (idleAll sha256 · rest)
    else none

theorem run_of_idleAll (performed : idleAll sha256 host actions = some after) (key : RequestKey) :
    UndisturbedRun sha256 key host after := by
  fun_induction idleAll sha256 host actions with
  | case1 =>
    cases performed
    exact .refl
  | case2 => cases performed
  | case3 host action rest others idle ih =>
    obtain ⟨next, first, rest⟩ := Option.bind_eq_some_iff.mp performed
    have left : ¬holds host key = true := by simp [holds_nothing idle]
    refine .head ⟨action, first, fun _ held => absurd held left, fun _ => by simpa using left,
      fun _ held => absurd held left, fun _ held => absurd held left, fun held => absurd held left,
      fun _ _ _ _ made => absurd made (others _), ?_⟩ (ih next rest)
    rintro ⟨call, made⟩
    exact absurd made (others _)
  | case4 => cases performed

/-- The request is cancelled before the worker looks: the worker finds nothing. -/
theorem withdrawn_never_admitted_cancelled :
    ∃ first second : QueueHost Unit,
      (∃ row ∈ first.queue.rows, rowKey row = requestKey sampleAdmission ∧ Withdrawn row) ∧
      second.worker.held = none ∧
      ¬Admitted first.admissions.store (requestKey sampleAdmission) ∧
      ¬Admitted second.admissions.store (requestKey sampleAdmission) := by
  have ran : ((idleAll sealingSha256 (.new emptyStore)
      [sampleEnqueue sampleQueueRequestId "request-test" 0,
        .cancel "principal-test" sampleQueueRequestId (seconds 0)]).bind
      fun (first : QueueHost Unit) => (idleAll sealingSha256 first
        [.worker .start, .worker (.look "desktop"), .worker .take]).map fun second =>
        decide (second.worker.held = none ∧ ∃ row ∈ first.queue.rows,
          rowKey row = requestKey sampleAdmission ∧ row.status = "cancelled")) = some true := by
    decide +kernel
  obtain ⟨first, before, ran⟩ := Option.bind_eq_some_iff.mp ran
  obtain ⟨second, after, all⟩ := Option.map_eq_some_iff.mp ran
  obtain ⟨found, row, member, own, status⟩ := of_decide_eq_true all
  obtain ⟨unadmitted, _⟩ := withdrawn_never_admitted sealingSha256 sealingSha256_identifies
    (requestKey sampleAdmission) emptyStore emptyStore_fresh first second
    (run_of_idleAll before _) (run_of_idleAll after _)
  exact ⟨first, second, ⟨row, member, own, .inl status⟩, found,
    unadmitted row member own (.inl status)⟩

end Satelle.QueueWithdrawals
