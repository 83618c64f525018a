import Satelle.RequestSlots
import Satelle.StoreRefinement

/-! A request is admitted or cancelled, never both. The run of the store is
watched for one request; its calls and reads come at times that do not go back,
all other calls in between are free. -/
namespace Satelle.CancellationExclusion
open Satelle.Core Lib Host StoreChanges
open AdmissionChanges StoreTransactions StoreRefinement RequestSlots
open StorageError (fail)

/-- One call, watched for a request. A call that looks at the tombstone of the
request does so at a time that is not before the last one. -/
inductive Watched (codec : TimeCodec) (key : RequestKey) (allowed : StoreCall → Prop) :
    Database × OffsetDateTime → Database × OffsetDateTime → Prop where
  | asked (may : allowed call) (asks : observes call = some (key, time)) (forward : clock ≤ time) :
      Watched codec key allowed (db, clock) ((serve codec db call).2, time)
  | other (may : allowed call) (elsewhere : ∀ time, observes call ≠ some (key, time)) :
      Watched codec key allowed (db, clock) ((serve codec db call).2, clock)

def WatchedRun (codec : TimeCodec) (key : RequestKey) (allowed : StoreCall → Prop) :
    Database × OffsetDateTime → Database × OffsetDateTime → Prop :=
  Relation.ReflTransGen (Watched codec key allowed)

/-- All calls but the retention pass. -/
def Lasting (call : StoreCall) : Prop := isRetention call = false

/-- The store says something of the request, in a reply or to a read. -/
inductive Told (codec : TimeCodec) (key : RequestKey) (db : Database) (clock : OffsetDateTime) :
    Verdict → Database → OffsetDateTime → Prop where
  | replied (asks : observes call = some (key, time)) (forward : clock ≤ time)
      (ran : serve codec db call = (.ok reply, after))
      (said : replyVerdict reply = some verdict) :
      Told codec key db clock verdict after time
  | read {input : IdempotencyInput} (own : input.recordKey = key) (forward : clock ≤ time)
      (ran : resolveAdmissionOperation codec db operation input expected time = .ok state) :
      Told codec key db clock (stateVerdict state) db time

/-- A tombstone that no longer counts. -/
def Expired (codec : TimeCodec) (row : AdmissionCancellationRow) (time : OffsetDateTime) : Prop :=
  (do let outcome ← DurableCancellationOutcome.parse row.outcome
      cancellationExpired codec outcome row.expiresAt time) = .ok true

/-- The store holds a tombstone that counts. -/
def Unexpired (codec : TimeCodec) (db : Database) (key : RequestKey) (time : OffsetDateTime) :
    Prop :=
  ∃ row, db.admissionCancellations.lookup key = some row ∧ ¬Expired codec row time

/-- A call to admit a Turn for the request. -/
def begins : StoreCall → Bool
  | .beginSession _ _ _ _ => true
  | .beginFollowUp _ _ _ _ _ _ _ _ => true
  | _ => false

/-- No call admits a Turn for the request at this time. -/
def Barred (codec : TimeCodec) (db : Database) (key : RequestKey) (time : OffsetDateTime) : Prop :=
  ∀ call, begins call = true → observes call = some (key, time) →
    ∃ e, serve codec db call = (.error e, db)

/-! ## The run as a run of the slot -/

/-- What is known along a watched run. -/
structure Knows (codec : TimeCodec) (key : RequestKey) (db : Database)
    (slot : Slot OffsetDateTime) : Prop where
  shows : Shows codec db key slot
  represented : ∃ held, Represents codec db held

theorem unexpired_iff (shows : Shows codec db key slot) :
    Unexpired codec db key time ↔ ∃ mark, slot.visible time = some mark := by
  have reads := shows.mark
  unfold Unexpired
  obtain ⟨performed, marked⟩ := slot
  generalize db.admissionCancellations.lookup key = found at reads
  cases reads with
  | none => simp [Slot.visible]
  | @some row outcome limit said expires =>
    simp only [Option.some.injEq, exists_eq_left']
    unfold Expired
    rw [said, parse_token]
    change ¬cancellationExpired codec outcome row.expiresAt time = .ok true ↔ _
    cases outcome with
    | cancelled => simp [cancellationExpired, expires, Except.map, Slot.visible, markOf]
    | recoveryPending => simp [cancellationExpired, Slot.visible, markOf]

/-- A watched call is a move of the slot. -/
theorem watched_move (knows : Knows codec key db slot)
    (step : Watched codec key allowed (db, clock) (after, next)) :
    ∃ slot', Knows codec key after slot' ∧
      Slot.Move expiry (∃ call, allowed call ∧ isRetention call = true) (slot, clock)
        (slot', next) := by
  obtain ⟨held, represents⟩ := knows.represented
  cases step with
  | @asked call _ _ _ may asks forward =>
    obtain ⟨slot', shows, step, _⟩ := serve_step_asked represents knows.shows asks
    exact ⟨slot', ⟨shows, serve_represented knows.represented call⟩, .step forward step⟩
  | @other call _ _ may elsewhere =>
    cases retention : isRetention call with
    | false =>
      obtain ⟨slot', shows, step, _⟩ := serve_step represents knows.shows retention
        fun observedAt observed => absurd observed (elsewhere observedAt)
      exact ⟨slot', ⟨shows, serve_represented knows.represented call⟩, .step (le_refl clock) step⟩
    | true =>
      obtain ⟨slot', shows, fade⟩ := (serve_fades represents retention).shows knows.shows
      exact ⟨slot', ⟨shows, serve_represented knows.represented call⟩,
        .fade ⟨call, may, retention⟩ fade⟩

theorem watched_run
    (knows : Knows codec key start.1 slot) (run : WatchedRun codec key allowed start final) :
    ∃ slot', Knows codec key final.1 slot' ∧
      Slot.Run expiry (∃ call, allowed call ∧ isRetention call = true) (slot, start.2)
        (slot', final.2) := by
  induction run with
  | refl => exact ⟨slot, knows, .refl⟩
  | tail _ step ih =>
    obtain ⟨between, knowsBetween, slots⟩ := ih
    obtain ⟨slot', knowsAfter, move⟩ := watched_move knowsBetween step
    exact ⟨slot', knowsAfter, slots.tail move⟩

/-- What is said agrees with what is known afterwards. -/
theorem told_agrees (knows : Knows codec key db slot)
    (told : Told codec key db clock verdict after time) :
    clock ≤ time ∧ ∃ slot', Knows codec key after slot' ∧ Slot.Step expiry time slot slot' ∧
      Agrees slot' time verdict := by
  obtain ⟨held, represents⟩ := knows.represented
  cases told with
  | @replied call _ _ reply _ asks forward ran said =>
    obtain ⟨slot', shows, step, agrees⟩ := serve_step_asked represents knows.shows asks
    have represented := serve_represented knows.represented call
    rw [ran] at shows represented agrees
    exact ⟨forward, slot', ⟨shows, represented⟩, step, agrees reply verdict rfl said⟩
  | read own forward ran =>
    subst own
    exact ⟨forward, slot, knows, .same, resolve_agrees knows.shows ran⟩

private theorem begin_admits (isBegin : begins call = true)
    (outcome : (serve codec db call).1 = .ok reply) : replyVerdict reply = some .admitted := by
  have ran : serve codec db call = (.ok reply, (serve codec db call).2) := Prod.ext outcome rfl
  cases call with
  | beginSession | beginFollowUp =>
    obtain ⟨_, _, rfl⟩ := transact_ok.mp ran
    rfl
  | commitLifecycle | recordUpstreamRef | beginStop | confirmStop | markRestartRecoveryPending
  | recordAdmissionCancellation | reconcileAdmissionCancellation | pruneExpiredSessionMetadata
  | appendSafeLog =>
    cases isBegin

/-! ## A tombstone that waits for recovery -/

/-- Not a call that reconciles the request as cancelled. -/
def Unreconciled (key : RequestKey) (call : StoreCall) : Prop :=
  ∀ operation input expected observedAt,
    call = .reconcileAdmissionCancellation operation input expected .cancelled observedAt →
      input.recordKey ≠ key

/-- The tombstone was written for this request, not for another under its key. -/
def Digests (row : AdmissionCancellationRow) (input : IdempotencyInput) : Prop :=
  row.requestDigest = input.requestDigest ∧
    row.digestSchemaVersion = input.digestSchemaVersion ∧
    row.hmacKeyVersion = input.hmacKeyVersion

/-- Time does not matter for a tombstone that waits for recovery. -/
private theorem matching_waiting (codec : TimeCodec)
    (time : OffsetDateTime)
    (found : db.admissionCancellations.lookup input.recordKey = some row)
    (waits : row.outcome = "recovery_pending") :
    (Digests row input ∧
      matchingAdmissionCancellation codec db input time = .ok (some .recoveryPending)) ∨
    (¬Digests row input ∧
      matchingAdmissionCancellation codec db input time = fail .idempotencyConflict) := by
  unfold matchingAdmissionCancellation
  rw [found]
  simp only [waits]
  by_cases same : Digests row input
  · refine .inl ⟨same, if_neg ?_⟩
    rintro (other | other | other)
    · exact other same.1
    · exact other same.2.1
    · exact other same.2.2
  · refine .inr ⟨same, if_pos (by_contra fun none => same ?_)⟩
    simp only [not_or, not_not] at none
    exact none

private theorem cancels_waiting
    (found : db.admissionCancellations.lookup input.recordKey = some row)
    (waits : row.outcome = "recovery_pending")
    (unasked : ¬(reconciled = true ∧ outcome = .cancelled))
    (cancels : Cancels codec db input outcome time reconciled state after) :
    after.admissionCancellations.lookup input.recordKey = some row := by
  have seen := matching_waiting codec time found waits
  cases cancels with
  | admitted | found => exact found
  | settled _ _ asked => exact absurd asked unasked
  | suspended _ visible =>
    rcases seen with ⟨_, seen⟩ | ⟨_, seen⟩
    all_goals
      rw [seen] at visible
      cases visible
  | inserted _ invisible =>
    rcases seen with ⟨_, seen⟩ | ⟨_, seen⟩
    all_goals
      rw [seen] at invisible
      cases invisible

/-- Nothing but reconciling it as cancelled changes such a tombstone. -/
private theorem serve_waiting (represented : ∃ held, Represents codec db held)
    (found : db.admissionCancellations.lookup key = some row)
    (waits : row.outcome = "recovery_pending") (free : Unreconciled key call) :
    (serve codec db call).2.admissionCancellations.lookup key = some row := by
  obtain ⟨held, represents⟩ := represented
  cases retention : isRetention call with
  | true =>
    have fades : Fades key db (serve codec db call).2 := serve_fades represents retention
    rcases fades.tombstone with same | ⟨_, other, there, said⟩
    · rw [same, found]
    · rw [found] at there
      cases there
      exact absurd (said.symm.trans waits) (by decide)
  | false =>
    rcases cancels_or_not codec db call key with
      ⟨input, wanted, observedAt, reconciled, rfl, asks, _⟩ | uncancelled
    · cases outcome : (serve codec db call).1 with
      | error e => rw [serve_error outcome, found]
      | ok reply =>
        obtain ⟨state, _, cancels⟩ := serve_cancels asks (Prod.ext outcome rfl)
        refine cancels_waiting found waits ?_ cancels
        rintro ⟨rfl, rfl⟩
        cases call <;> cases asks
        exact free _ _ _ _ rfl rfl
    · obtain ⟨held', changes⟩ := serve_changed represents call
      rw [(changes_spare changes (serve_admitting retention)).tombstone uncancelled, found]

private theorem run_waiting (represented : ∃ held, Represents codec start.1 held)
    (found : start.1.admissionCancellations.lookup key = some row)
    (waits : row.outcome = "recovery_pending")
    (run : WatchedRun codec key (Unreconciled key) start final) :
    (∃ held, Represents codec final.1 held) ∧
      final.1.admissionCancellations.lookup key = some row := by
  induction run with
  | refl => exact ⟨represented, found⟩
  | tail _ step ih =>
    cases step with
    | asked free | other free =>
      exact ⟨serve_represented ih.1 _, serve_waiting ih.1 ih.2 waits free⟩

/-! ## Exclusion -/

private theorem knows_start (reachable : ReachableStore codec start)
    (unmarked : start.admissionCancellations.lookup key = none) (time : OffsetDateTime) :
    ∃ slot, Knows codec key start slot ∧ Slot.Sound expiry slot time := by
  obtain ⟨held, represents, _⟩ := reachable_invariant (fun _ _ => True)
    (fun _ _ => trivial) (fun _ _ _ _ _ _ _ _ _ _ => trivial) reachable
  refine ⟨_, ⟨unmarked_shows unmarked, held, represents⟩, fun _ => rfl, ?_⟩
  intro mark limit marked
  cases marked

/-- While a tombstone counts there is no record, and none is made. -/
private theorem unexpired_barred (knows : Knows codec key db slot)
    (sound : Slot.Sound expiry slot clock) (forward : clock ≤ time)
    (unexpired : Unexpired codec db key time) :
    db.idempotencyRecords.lookup key = none ∧ Barred codec db key time := by
  obtain ⟨mark, seen⟩ := (unexpired_iff knows.shows).mp unexpired
  have unperformed : ¬slot.performed = true := by
    intro performed
    rw [sound.free forward performed] at seen
    cases seen
  refine ⟨?_, ?_⟩
  · rw [knows.shows.performed, Option.isSome_iff_ne_none, not_not] at unperformed
    exact unperformed
  · intro call isBegin asks
    obtain ⟨held, represents⟩ := knows.represented
    obtain ⟨next, _, step, agrees⟩ := serve_step_asked represents knows.shows asks
    cases outcome : (serve codec db call).1 with
    | error e => exact ⟨e, Prod.ext outcome (serve_error outcome)⟩
    | ok reply =>
      have admitted : replyVerdict reply = some .admitted := begin_admits isBegin outcome
      exact absurd (step.performed_of_visible seen (agrees reply _ outcome admitted)) unperformed

private theorem lasts : ¬∃ call, Lasting call ∧ isRetention call = true := by
  rintro ⟨call, keeps, retention⟩
  rw [keeps] at retention
  cases retention

/-- What holds once the store has said that the request is cancelled. -/
private theorem cancelled_lasts (knows : Knows codec key db slot)
    (sound : Slot.Sound expiry slot clock)
    (told : Told codec key db clock .cancelled after time) :
    ∃ limit, time < limit ∧ ∀ later now, WatchedRun codec key Lasting (after, time) (later, now) →
      ∀ time', now ≤ time' → time' < limit → Unexpired codec later key time' ∧
        later.idempotencyRecords.lookup key = none ∧ Barred codec later key time' := by
  obtain ⟨forward, slot', knowsAfter, step, agrees⟩ := told_agrees knows told
  obtain ⟨limit, marked, before⟩ := Slot.visible_eq_some.mp agrees
  have soundAfter := step.sound expiry_mono forward sound
  refine ⟨limit, before rfl, ?_⟩
  intro later now run time' reached inTime
  obtain ⟨final, knowsLater, slots⟩ := watched_run knowsAfter run
  have blocked := slots.blocked expiry_mono lasts (soundAfter.blocked marked (before rfl))
  have unexpired := (unexpired_iff knowsLater.shows).mpr (blocked.visible reached inTime)
  exact ⟨unexpired, unexpired_barred knowsLater (slots.sound expiry_mono soundAfter) reached
    unexpired⟩

/-- What holds once the store has said that the request is admitted. -/
private theorem admitted_lasts (knows : Knows codec key db slot)
    (sound : Slot.Sound expiry slot clock)
    (told : Told codec key db clock .admitted after time)
    (run : WatchedRun codec key Lasting (after, time) (later, now))
    (again : Told codec key later now verdict after' time') : verdict = .admitted := by
  obtain ⟨forward, slot', knowsAfter, step, performed⟩ := told_agrees knows told
  obtain ⟨final, knowsLater, slots⟩ := watched_run knowsAfter run
  have soundLater := slots.sound expiry_mono (step.sound expiry_mono forward sound)
  have stays := slots.performed lasts performed
  obtain ⟨reached, last, _, lastStep, agrees⟩ := told_agrees knowsLater again
  have performedLast := lastStep.performed stays
  have free := (lastStep.sound expiry_mono reached soundLater).exclusive performedLast
  cases verdict with
  | admitted => rfl
  | missing =>
    rw [agrees.1] at performedLast
    cases performedLast
  | cancelled | recoveryPending =>
    unfold Agrees at agrees
    rw [free] at agrees
    cases agrees

/-- What a read says while the tombstone waits for recovery. -/
private theorem resolve_waiting (unrecorded : db.idempotencyRecords.lookup input.recordKey = none)
    (found : db.admissionCancellations.lookup input.recordKey = some row)
    (waits : row.outcome = "recovery_pending") (expected : Option SessionId)
    (time : OffsetDateTime) :
    (Digests row input → resolveAdmissionOperation codec db input.operation input expected time =
      .ok .recoveryPending) ∧
    (¬Digests row input → resolveAdmissionOperation codec db input.operation input expected time =
      fail .idempotencyConflict) := by
  have missing : matchingIdempotency db input = .ok none := by
    rw [matchingIdempotency, unrecorded]
  have opened : resolveAdmissionOperation codec db input.operation input expected time =
      (matchingAdmissionCancellation codec db input time).map fun found =>
        found.elim .missing DurableAdmissionState.ofCancellation := by
    rw [resolveAdmissionOperation, requireOperation, ensure, if_pos rfl, missing]
    cases matchingAdmissionCancellation codec db input time <;> rfl
  rw [opened]
  rcases matching_waiting codec time found waits with ⟨same, seen⟩ | ⟨other, seen⟩
  · rw [seen]
    exact ⟨fun _ => rfl, fun other => absurd same other⟩
  · rw [seen]
    exact ⟨fun same => absurd same other, fun _ => rfl⟩

/-- Admission and cancellation of a request exclude each other, from any store
that holds no tombstone for it. Whatever calls are made, retention included, a
record and a tombstone that counts are never both there, and while a tombstone
counts every call to admit the request fails. Once the store has said that the
request is cancelled, the tombstone counts until a time that is still to come.
Once it has said that the request is admitted it says nothing else. A tombstone
that waits for recovery stays as it is, whatever the time, until a call
reconciles the request as cancelled. -/
theorem cancellation_excludes_admission (codec : TimeCodec) (key : RequestKey)
    (start db : Database) (started clock : OffsetDateTime)
    (reachable : ReachableStore codec start)
    (unmarked : start.admissionCancellations.lookup key = none)
    (run : WatchedRun codec key (fun _ => True) (start, started) (db, clock)) :
    (∀ time, clock ≤ time → Unexpired codec db key time →
      db.idempotencyRecords.lookup key = none ∧ Barred codec db key time) ∧
    (∀ after time, Told codec key db clock .cancelled after time → ∃ limit, time < limit ∧
      ∀ later now, WatchedRun codec key Lasting (after, time) (later, now) →
        ∀ time', now ≤ time' → time' < limit → Unexpired codec later key time' ∧
          later.idempotencyRecords.lookup key = none ∧ Barred codec later key time') ∧
    (∀ after time, Told codec key db clock .admitted after time →
      ∀ later now, WatchedRun codec key Lasting (after, time) (later, now) →
        ∀ verdict after' time', Told codec key later now verdict after' time' →
          verdict = .admitted) ∧
    (∀ row, db.admissionCancellations.lookup key = some row → row.outcome = "recovery_pending" →
      ∀ later now, WatchedRun codec key (Unreconciled key) (db, clock) (later, now) →
        later.admissionCancellations.lookup key = some row ∧
        ∀ input expected time, input.recordKey = key →
          (Digests row input →
            resolveAdmissionOperation codec later input.operation input expected time =
              .ok .recoveryPending) ∧
          (¬Digests row input →
            resolveAdmissionOperation codec later input.operation input expected time =
              fail .idempotencyConflict)) := by
  obtain ⟨first, knowsStart, soundStart⟩ := knows_start reachable unmarked started
  obtain ⟨slot, knows, slots⟩ := watched_run knowsStart run
  have sound := slots.sound expiry_mono soundStart
  refine ⟨?_, ?_, ?_, ?_⟩
  · intro time forward unexpired
    exact unexpired_barred knows sound forward unexpired
  · intro after time told
    exact cancelled_lasts knows sound told
  · intro after time told later now run verdict after' time' again
    exact admitted_lasts knows sound told run again
  · intro row found waits later now run
    obtain ⟨_, stays⟩ := run_waiting knows.represented found waits run
    refine ⟨stays, ?_⟩
    rintro input expected time rfl
    obtain ⟨final, knowsLater, slots⟩ := watched_run knows run
    have counts : Unexpired codec later input.recordKey now := by
      refine ⟨row, stays, ?_⟩
      unfold Expired
      rw [waits]
      intro expired
      cases expired
    have bars := unexpired_barred knowsLater (slots.sound expiry_mono sound) (le_refl now) counts
    exact resolve_waiting bars.1 stays waits expected time

/-- The sample request is cancelled before it is admitted. -/
def sampleCancel : StoreCall :=
  .recordAdmissionCancellation .run (sampleInput .run 0) none .cancelled (seconds 0)

def cancelledStore : Database := (serve sampleCodec emptyStore sampleCancel).2

theorem cancellation_excludes_admission_cancelled :
    serve sampleCodec emptyStore sampleCancel = (.ok (.cancellation .cancelled), cancelledStore) ∧
    (∃ e, serve sampleCodec cancelledStore sampleBegin = (.error e, cancelledStore)) ∧
    (serve sampleCodec emptyStore sampleBegin).1.toBool = true := by
  have cancelled : serve sampleCodec emptyStore sampleCancel =
      (.ok (.cancellation .cancelled), cancelledStore) := Prod.ext (by rfl) rfl
  refine ⟨cancelled, ?_, by decide⟩
  obtain ⟨_, lasts, _⟩ := cancellation_excludes_admission sampleCodec (sampleInput .run 0).recordKey
    emptyStore emptyStore (seconds 0) (seconds 0) ⟨emptyStore, emptyStore_fresh, .refl⟩ rfl .refl
  obtain ⟨limit, before, holds⟩ := lasts cancelledStore (seconds 0)
    (.replied rfl (le_refl _) cancelled rfl)
  obtain ⟨_, _, barred⟩ := holds cancelledStore (seconds 0) .refl (seconds 0) (le_refl _) before
  exact barred sampleBegin rfl rfl

end Satelle.CancellationExclusion
