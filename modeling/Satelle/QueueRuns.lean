import Satelle.Host.QueueHost
import Satelle.QueueHistory

/-! Runs of the turn queue with its worker. Whatever happens, the queue changes only
by the steps of its transactions, and the request that the worker holds was first
in its queue when it was read. -/
namespace Satelle.QueueRuns
open Satelle.Core Lib Host QueueChanges QueueEntries QueueHistory

variable {Reply : Type} {sha256 : PayloadDigest}

variable {host after : QueueHost Reply}

/-- Any number of steps of the service, its worker and the admissions. -/
def QueueRun (sha256 : PayloadDigest) : QueueHost Reply → QueueHost Reply → Prop :=
  Relation.ReflTransGen fun host after => ∃ action, host.perform sha256 action = some after

/-! ## The queue -/

/-- What an enqueue has done: nothing, or a transaction that inserted the request. -/
theorem enqueue_cases
    (performed : host.perform sha256 (.enqueue payload queueRequestId now config) = some after) :
    after = host ∨ ∃ valid leaseKey stored state,
      queueLeaseKey host.admissions.store payload.desktopBinding.text = .ok leaseKey ∧
      enqueueQueueRequest host.state (payload.newRecord sha256 queueRequestId leaseKey now
        config.ttlMs) (queueDepth config valid) = .ok (.inserted stored, state) ∧
      after = { host.committed state [] with
        files := writePayload host.files queueRequestId payload } := by
  simp only [QueueHost.perform, Option.dite_none_right_eq_some] at performed
  obtain ⟨valid, made⟩ := performed
  obtain rfl := Option.some.inj made
  unfold QueueHost.enqueueTurn
  split
  · exact .inl rfl
  · rename_i leaseKey lease
    split
    · exact .inl rfl
    · split
      · rename_i stored after ran
        obtain ⟨_, done, made⟩ := transact_ok.mp ran
        cases made
        exact .inr ⟨valid, leaseKey, stored, after, lease, done, rfl⟩
      · exact .inl rfl
      · exact .inl rfl

/-- What a transaction of a service call has done. -/
theorem transaction_cases (host : QueueHost Reply) (call : QueueCall) :
    host.transaction call = host ∨ ∃ reply after, serveQueue host.state call = (.ok reply, after) ∧
      host.transaction call = host.committed after (movedUp reply) := by
  unfold QueueHost.transaction
  split
  · rename_i reply after ran
    exact .inr ⟨reply, after, ran, rfl⟩
  · exact .inl rfl

/-- What a step of the worker does. -/
inductive Worked (sha256 : PayloadDigest) (host : QueueHost Reply) :
    WorkerPc → WorkerStep → QueueHost Reply → Prop where
  | started : Worked sha256 host .idle .start (host.goes (.choosing none))
  | looked (considered : considerBinding host.state next binding = .ok next') :
      Worked sha256 host (.choosing next) (.look binding) (host.goes (.choosing next'))
  | took : Worked sha256 host (.choosing (some record)) .take (host.goes (.reading record))
  | read (verified : sha256 payload = record.payloadSha256) :
      Worked sha256 host (.reading record) .read (host.goes (.checking record payload))
  | unread (error : SatelleError) : Worked sha256 host (.reading record) .read
      (host.goes (.finishing record (.validationFailed (queueFailure error))))
  | refused (error : SatelleError) : Worked sha256 host (.checking record payload) step
      (host.goes (.finishing record (.validationFailed (queueFailure error))))
  | called (id : ThreadId) (asks : payload.asks request = true)
      (made : host.admissions.within (.call id (.execute request token .probing)) =
        some admissions) :
      Worked sha256 host (.checking record payload) (.call id token request)
        { host with admissions := admissions, worker := .admitting record id }
  | received {id : ThreadId}
      (there : host.admissions.system.threads id = some (.execute request token pc))
      (returned : pc.returnedResult = some result)
      (heard : WorkerPc.received record (result >>= OperationOutcome.intoSession) = some next) :
      Worked sha256 host (.admitting record id) .receive (host.goes next)
  | finished (ran : serveQueue host.state (update.call record.status.queueRequestId now) =
        (.ok reply, state)) :
      Worked sha256 host (.finishing record update) (.finish now)
        ((host.committed state record.movedUp).goes .idle)
  | unfinished : Worked sha256 host (.finishing record update) (.finish now) (host.goes .idle)
  | stopped : Worked sha256 host (.choosing next) step (host.goes .idle)
  | postponed : Worked sha256 host (.checking record payload) step (host.goes .idle)

theorem worked_of_work (performed : host.work sha256 pc step = some after) :
    Worked sha256 host pc step after := by
  unfold QueueHost.work at performed
  split at performed
  · cases performed
    exact .started
  · split at performed
    · rename_i considered
      cases performed
      exact .looked considered
    · cases performed
      exact .stopped
  · cases performed
    exact .stopped
  · cases performed
    exact .took
  · split at performed
    · rename_i payload verified
      cases performed
      unfold readPayload at verified
      split at verified
      · cases verified
      · split at verified
        · rename_i same
          cases verified
          exact .read same
        · cases verified
    · cases performed
      exact .unread _
  · cases performed
    exact .refused _
  · split at performed
    · rename_i valid
      obtain ⟨admissions, made, rfl⟩ := Option.map_eq_some_iff.mp performed
      exact .called _ valid.2 made
    · cases performed
  · obtain ⟨next, heard, rfl⟩ := Option.map_eq_some_iff.mp performed
    obtain rfl := Option.some.inj heard
    split
    · exact .postponed
    · exact .refused _
  · split at performed
    · rename_i there
      obtain ⟨result, returned, performed⟩ := Option.bind_eq_some_iff.mp performed
      obtain ⟨next, heard, rfl⟩ := Option.map_eq_some_iff.mp performed
      exact .received there returned heard
    all_goals cases performed
  · cases performed
    unfold QueueHost.finish
    split
    · rename_i ran
      exact .finished ran
    · exact .unfinished
  · cases performed
    exact .stopped
  · cases performed
    exact .postponed
  · cases performed

/-- A step of the worker leaves the queue alone, or updates the request it holds. -/
theorem work_queue (worked : host.work sha256 pc step = some after) :
    (after.queue = host.queue ∧ after.owed = host.owed) ∨
    ∃ record update now reply state, pc = .finishing record update ∧ step = .finish now ∧
      serveQueue host.state (update.call record.status.queueRequestId now) = (.ok reply, state) ∧
      after = (host.committed state record.movedUp).goes .idle := by
  cases worked_of_work worked with
  | finished ran => exact .inr ⟨_, _, _, _, _, rfl, rfl, ran, rfl⟩
  | started | looked | took | read | unread | refused | called | received | unfinished | stopped
  | postponed => exact .inl ⟨rfl, rfl⟩

/-- What the news of a move has done. -/
theorem announce_cases (announced : host.announce leaseKey position clock = some after) :
    after = host ∨ ∃ reply state,
      serveQueue host.state (.advance leaseKey position clock) = (.ok reply, state) ∧
      after = { host.committed state [] with owed := host.owed.erase (leaseKey, position) } := by
  unfold QueueHost.announce at announced
  split at announced
  · split at announced
    · rename_i reply state ran
      cases announced
      exact .inr ⟨reply, state, ran, rfl⟩
    · cases announced
      exact .inl rfl
  · cases announced

theorem serve_steps {state after : QueueStore} (call : QueueCall) (timed : WellTimed call)
    (ran : serveQueue state call = (.ok reply, after)) : Steps state.queue after.queue := by
  have steps : Steps state.queue (serveQueue state call).2.queue := serveQueue_steps timed
  rwa [ran] at steps

theorem logged_later {after} (logged : Logged db after) :
    Host.Later rfc3339 (fun _ _ => True) db after := by
  induction logged with
  | refl => exact .refl
  | tail _ step ih =>
    obtain ⟨record, inserted⟩ := step
    refine ih.tail ⟨.appendSafeLog record, trivial, ?_⟩
    show (transact _ _ _).2 = _
    rw [inserted]
    rfl

theorem finished_queue {state after : QueueStore} {update : QueueTerminalUpdate}
    (ran : serveQueue state (update.call queueRequestId now) = (.ok reply, after)) :
    updateQueued state.queue (fun row => row.queueRequestId = queueRequestId.text) update.change
      update.change_queueRequestId = .ok after.queue := by
  cases update with
  | admitted =>
    cases (served_of ran).done with
    | admitted updated => exact updated
  | validationFailed =>
    cases (served_of ran).done with
    | failed updated => exact updated

/-- A step that concerns neither the worker nor the calls of the slot. -/
structure Quiet (host after : QueueHost Reply) : Prop where
  queue : Steps host.queue after.queue
  store : Logged host.admissions.store after.admissions.store
  system : after.admissions.system = host.admissions.system
  operations : after.admissions.operations = host.admissions.operations
  worker : after.worker = host.worker

theorem Quiet.refl (host : QueueHost Reply) : Quiet host host := ⟨.refl, .refl, rfl, rfl, rfl⟩

theorem transaction_quiet (timed : WellTimed call) : Quiet host (host.transaction call) := by
  rcases transaction_cases host call with same | ⟨reply, after, ran, made⟩
  · rw [same]
    exact .refl host
  · rw [made]
    exact ⟨serve_steps call timed ran, (served_of ran).logged, rfl, rfl, rfl⟩

/-- What a step of the Host is. -/
inductive Performed (sha256 : PayloadDigest) (host : QueueHost Reply) :
    QueueAction Reply → QueueHost Reply → Prop where
  | admissions (moved : host.admissions.perform rfc3339 action = some admissions) :
      Performed sha256 host (.admissions action) { host with admissions := admissions }
  | worker {after : QueueHost Reply} (isAt : host.worker = pc)
      (worked : Worked sha256 host pc step after) : Performed sha256 host (.worker step) after
  | restarted : Performed sha256 host .restart
      { host with admissions := .new host.admissions.store, worker := .idle }
  | quiet {after : QueueHost Reply}
      (others : (∀ step, action ≠ .worker step) ∧ (∀ own, action ≠ .admissions own))
      (quiet : Quiet host after) : Performed sha256 host action after

theorem performed_of_perform (performed : host.perform sha256 action = some after) :
    Performed sha256 host action after := by
  cases action with
  | admissions action =>
    obtain ⟨_, moved, rfl⟩ := Option.map_eq_some_iff.mp performed
    exact .admissions moved
  | enqueue payload queueRequestId now config =>
    refine .quiet ⟨by simp, by simp⟩ ?_
    rcases enqueue_cases performed with rfl | ⟨valid, leaseKey, stored, state, _, ran, rfl⟩
    · exact .refl after
    · have served : serveQueue host.state (.enqueue (payload.newRecord sha256 queueRequestId leaseKey
          now config.ttlMs) (queueDepth config valid)) = (.ok (.enqueued (.inserted stored)), state) :=
        transact_ok.mpr ⟨_, ran, rfl⟩
      have positive := (QueueConfig.bounds_of_validate valid).2.1
      have timed := Int.mul_pos (Int.natCast_pos.mpr positive) (show (0 : Int) < 1000000 by decide)
      exact ⟨enqueue_steps (Int.lt_add_of_pos_right now timed) ran, (served_of served).logged, rfl,
        rfl, rfl⟩
  | expire | cancel | credentialFailed =>
    cases performed
    exact .quiet ⟨by simp, by simp⟩ (transaction_quiet trivial)
  | announce leaseKey position clock =>
    refine .quiet ⟨by simp, by simp⟩ ?_
    rcases announce_cases performed with rfl | ⟨_, _, ran, rfl⟩
    · exact .refl after
    · exact ⟨serve_steps (.advance leaseKey position clock) trivial ran, (served_of ran).logged,
        rfl, rfl, rfl⟩
  | files files =>
    cases performed
    exact .quiet ⟨by simp, by simp⟩ ⟨.refl, .refl, rfl, rfl, rfl⟩
  | worker step => exact .worker rfl (worked_of_work performed)
  | restart =>
    cases performed
    exact .restarted

/-- Every step of the Host is a sequence of steps of the queue. -/
theorem perform_steps (performed : host.perform sha256 action = some after) :
    Steps host.queue after.queue := by
  cases performed_of_perform performed with
  | admissions | restarted => exact .refl
  | quiet _ quiet => exact quiet.queue
  | worker _ worked =>
    cases worked with
    | @finished _ _ _ update _ ran => exact serve_steps _ (by cases update <;> trivial) ran
    | started | looked | took | read | unread | refused | called | received | unfinished | stopped
    | postponed => exact .refl

theorem run_steps (run : QueueRun sha256 host after) : Steps host.queue after.queue := by
  induction run with
  | refl => exact .refl
  | tail _ step ih =>
    obtain ⟨action, performed⟩ := step
    exact ih.trans (perform_steps performed)

/-! ## The request that the worker holds -/

/-- The record was read from the first request of its desktop. -/
structure ReadFrom (queue : QueueTable) (record : StoredQueueRecord) (row : QueueRow) : Prop where
  member : row ∈ queue.rows
  named : row.queueRequestId = record.status.queueRequestId.text
  leaseKey : row.leaseKey = record.leaseKey
  payloadSha256 : row.payloadSha256 = record.payloadSha256
  first : record.status.position = some 1

theorem ReadFrom.later {after} (read : ReadFrom queue record row) (steps : Steps queue after) :
    ∃ later, ReadFrom after record later ∧ Follows row later := by
  obtain ⟨later, member, follows⟩ := steps_follow steps row read.member
  refine ⟨later, ⟨member, ?_, ?_, ?_, read.first⟩, follows⟩
  · rw [follows.kept]
    exact read.named
  · rw [follows.kept]
    exact read.leaseKey
  · rw [follows.kept]
    exact read.payloadSha256

theorem considerBinding_read (sound : Sound state.queue)
    (considered : considerBinding state next binding = .ok (some record)) :
    next = some record ∨ ∃ row, ReadFrom state.queue record row ∧ row.isQueued = true := by
  unfold considerBinding at considered
  simp only [except_bind_ok] at considered
  obtain ⟨lease, _, candidate, read, made⟩ := considered
  cases candidate with
  | none => exact .inl (Except.ok.inj made)
  | some candidate =>
    dsimp only at made
    split at made
    · cases made
      right
      have ranked := fifoOf_ranked sound lease
      rw [ranked.first] at read
      cases shape : fifoOf state.queue lease with
      | nil =>
        rw [shape] at read
        cases read
      | cons row rest =>
        have first : (fifoOf state.queue lease)[0]? = some row := by rw [shape]; rfl
        obtain ⟨own, decoded, position⟩ := ranked.positions 0 row first
        obtain ⟨member, _, waits⟩ := mem_fifoOf.mp (List.mem_of_getElem? first)
        obtain ⟨entry, encodes, isEntry⟩ := decode_sound sound member
        rw [shape, List.head?_cons, Option.mapM_some, decoded] at read
        cases read
        rw [isEntry] at decoded
        cases decoded
        exact ⟨row, ⟨member, encodes.queueRequestId, rfl, rfl, position⟩, waits⟩
    · exact .inl (Except.ok.inj made)

/-- After its call has returned, the worker finishes the request or lets it wait. -/
theorem received_cases (heard : WorkerPc.received record result = some next) :
    next = .idle ∨ ∃ update, next = .finishing record update := by
  cases result with
  | ok session =>
    obtain ⟨_, _, rfl⟩ := Option.map_eq_some_iff.mp heard
    exact .inr ⟨_, rfl⟩
  | error error =>
    obtain rfl := Option.some.inj heard
    split
    · exact .inl rfl
    · exact .inr ⟨_, rfl⟩

/-- Where the request comes from that the worker holds after a step. -/
theorem work_held (sound : Sound host.queue) (worked : host.work sha256 pc step = some after)
    (holds : after.worker.held = some record) :
    pc.held = some record ∨ ∃ row, ReadFrom host.queue record row ∧ row.isQueued = true := by
  cases worked_of_work worked with
  | started | finished | unfinished | stopped | postponed => cases holds
  | took | read | unread | refused | called => exact .inl holds
  | received _ _ heard =>
    left
    rcases received_cases heard with rfl | ⟨_, rfl⟩
    · cases holds
    · exact holds
  | @looked _ _ next considered =>
    have isNext : next = some record := holds
    rw [isNext] at considered
    exact considerBinding_read sound considered

/-- What holds at all times: the rows are sound, and the worker holds a request that
was read from them. -/
structure Running (host : QueueHost Reply) : Prop where
  sound : Sound host.queue
  held : ∀ record, host.worker.held = some record → ∃ row, ReadFrom host.queue record row

theorem perform_running (running : Running host)
    (performed : host.perform sha256 action = some after) : Running after := by
  have steps := perform_steps performed
  refine ⟨steps_sound running.sound steps, fun record holds => ?_⟩
  -- the request was held before, or has just been read
  have known : ∃ row, ReadFrom host.queue record row := by
    cases performed_of_perform performed with
    | admissions => exact running.held record holds
    | restarted => cases holds
    | quiet _ quiet => exact running.held record (quiet.worker ▸ holds)
    | worker =>
      rcases work_held running.sound performed holds with before | ⟨row, read, _⟩
      · exact running.held record before
      · exact ⟨row, read⟩
  obtain ⟨row, read⟩ := known
  obtain ⟨later, isRead, _⟩ := read.later steps
  exact ⟨later, isRead⟩

theorem run_running (running : Running host) (run : QueueRun sha256 host after) :
    Running after := by
  induction run with
  | refl => exact running
  | tail _ step ih =>
    obtain ⟨action, performed⟩ := step
    exact perform_running ih performed

theorem new_running (store : Database) : Running (.new store : QueueHost Reply) where
  sound := empty_sound
  held := by
    intro record holds
    cases holds

end Satelle.QueueRuns
