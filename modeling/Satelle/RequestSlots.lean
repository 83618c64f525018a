import Satelle.StoreHistory
import Satelle.Lib.Cancellable

/-! One request as the store knows it: whether it has a record, and its
tombstone. Every call is a step of the request, or leaves it as it is. -/
namespace Satelle.RequestSlots
open Satelle.Core Lib Host StoreStatements StoreChanges StoreEffects
open AdmissionChanges StoreTransactions
open StorageError (fail)

/-- The principal, operation and key a record is stored under. -/
abbrev RequestKey := String × String × String

/-- A tombstone lasts as long as a record. -/
def expiry (time : OffsetDateTime) : OffsetDateTime := time + idempotencyRetention

theorem expiry_mono : Monotone expiry := by
  intro a b le
  exact Int.add_le_add_right le _

theorem lt_expiry (time : OffsetDateTime) : time < expiry time :=
  Int.lt_add_of_pos_right time (by decide)

def markOf : DurableCancellationOutcome → Mark
  | .cancelled => .cancelled
  | .recoveryPending => .pending

/-- What a tombstone says. Only requests for admissions have one. -/
inductive Marked (codec : TimeCodec) (key : RequestKey) :
    Option AdmissionCancellationRow → Option (Mark × OffsetDateTime) → Prop where
  | none : Marked codec key none none
  | some {row : AdmissionCancellationRow} {outcome : DurableCancellationOutcome}
      {limit : OffsetDateTime} (said : row.outcome = outcome.token)
      (expires : parseTime codec row.expiresAt = .ok limit) (admission : key.2.1 ≠ "stop") :
      Marked codec key (some row) (some (markOf outcome, limit))

/-- What the store knows of a request. -/
structure Shows (codec : TimeCodec) (db : Database) (key : RequestKey)
    (slot : Slot OffsetDateTime) : Prop where
  performed : slot.performed = (db.idempotencyRecords.lookup key).isSome
  mark : Marked codec key (db.admissionCancellations.lookup key) slot.mark

/-- What is known of a request that has no tombstone. -/
theorem unmarked_shows (unmarked : db.admissionCancellations.lookup key = none) :
    Shows codec db key ⟨(db.idempotencyRecords.lookup key).isSome, none⟩ := by
  refine ⟨rfl, ?_⟩
  rw [unmarked]
  exact .none

/-! ## Reading the tombstone -/

theorem parse_token (outcome : DurableCancellationOutcome) :
    DurableCancellationOutcome.parse outcome.token = .ok outcome := by
  cases outcome <;> rfl

section Matching
variable {input : IdempotencyInput} (shows : Shows codec db input.recordKey slot)
include shows

/-- The tombstone a request finds is the mark that counts. -/
theorem matching_visible (time : OffsetDateTime) :
    (slot.visible time = none ∧ matchingAdmissionCancellation codec db input time = .ok none) ∨
    ∃ outcome, slot.visible time = some (markOf outcome) ∧
      (matchingAdmissionCancellation codec db input time = .ok (some outcome) ∨
        matchingAdmissionCancellation codec db input time = fail .idempotencyConflict) := by
  obtain ⟨performed, marked⟩ := slot
  have reads := shows.mark
  unfold matchingAdmissionCancellation
  generalize db.admissionCancellations.lookup input.recordKey = found at reads
  cases reads with
  | none => exact .inl ⟨rfl, rfl⟩
  | @some row outcome limit said expires admission =>
    simp only [said, parse_token, bind, Except.bind]
    cases outcome with
    | cancelled =>
      simp only [cancellationExpired, expires, Except.map]
      by_cases passed : limit ≤ time
      · refine .inl ⟨?_, by simp [passed]⟩
        exact Slot.visible_eq_none.mpr (by simp [markOf, passed])
      · refine .inr ⟨.cancelled, ?_, ?_⟩
        · exact Slot.visible_eq_some.mpr ⟨limit, rfl, fun _ => lt_of_not_ge passed⟩
        · simp only [passed, decide_false, Bool.false_eq_true, if_false]
          split
          · exact .inr rfl
          · exact .inl rfl
    | recoveryPending =>
      refine .inr ⟨.recoveryPending, ?_, ?_⟩
      · exact Slot.visible_eq_some.mpr ⟨limit, rfl, fun impossible => by cases impossible⟩
      · simp only [cancellationExpired, Bool.false_eq_true, if_false]
        split
        · exact .inr rfl
        · exact .inl rfl

theorem matching_none (found : matchingAdmissionCancellation codec db input time = .ok none) :
    slot.visible time = none := by
  rcases matching_visible shows time with ⟨free, _⟩ | ⟨_, _, seen | seen⟩
  · exact free
  · rw [seen] at found
    cases found
  · rw [seen] at found
    cases found

theorem matching_some
    (found : matchingAdmissionCancellation codec db input time = .ok (some outcome)) :
    slot.visible time = some (markOf outcome) := by
  rcases matching_visible shows time with ⟨_, seen⟩ | ⟨_, visible, seen | seen⟩
  · rw [seen] at found
    cases found
  · rw [seen] at found
    cases found
    exact visible
  · rw [seen] at found
    cases found

end Matching

/-! ## What the store says -/

/-- What the store can say of a request. -/
inductive Verdict where
  | missing | admitted | cancelled | recoveryPending
  deriving DecidableEq

def stateVerdict : DurableAdmissionState → Verdict
  | .missing => .missing
  | .admitted _ => .admitted
  | .cancelled => .cancelled
  | .recoveryPending => .recoveryPending

/-- What a reply says of the request it answers. -/
def replyVerdict : StoreReply → Option Verdict
  | .admission _ => some .admitted
  | .cancellation state => some (stateVerdict state)
  | _ => none

/-- A verdict that agrees with what is known of the request. -/
def Agrees (slot : Slot OffsetDateTime) (time : OffsetDateTime) : Verdict → Prop
  | .missing => slot.performed = false ∧ slot.visible time = none
  | .admitted => slot.performed = true
  | .cancelled => slot.visible time = some .cancelled
  | .recoveryPending => slot.visible time = some .pending

theorem agrees_ofCancellation :
    Agrees slot time (stateVerdict (.ofCancellation outcome)) ↔
      slot.visible time = some (markOf outcome) := by
  cases outcome <;> rfl

private theorem unperformed (shows : Shows codec db key slot)
    (unrecorded : db.idempotencyRecords.lookup key = none) : slot.performed = false := by
  rw [shows.performed, unrecorded]
  rfl

private theorem performed_of_matching (shows : Shows codec db input.recordKey slot)
    (recorded : matchingIdempotency db input = .ok (some record)) : slot.performed = true := by
  rw [shows.performed, (matchingIdempotency_ok.mp recorded).1]
  rfl

/-- A read says what is known. -/
theorem resolve_agrees (shows : Shows codec db input.recordKey slot)
    (ran : resolveAdmissionOperation codec db operation input expected time = .ok state) :
    Agrees slot time (stateVerdict state) := by
  unfold resolveAdmissionOperation at ran
  simp only [except_bind_ok] at ran
  obtain ⟨_, _, found, matching, ran⟩ := ran
  cases found with
  | some record =>
    simp only [except_bind_ok] at ran
    obtain ⟨_, _, returned⟩ := ran
    cases returned
    exact performed_of_matching shows matching
  | none =>
    simp only [except_bind_ok] at ran
    obtain ⟨tombstone, seen, returned⟩ := ran
    cases returned
    cases tombstone with
    | none =>
      exact ⟨unperformed shows (matchingIdempotency_ok.mp matching).1, matching_none shows seen⟩
    | some outcome => exact agrees_ofCancellation.mpr (matching_some shows seen)

/-! ## Calls that do not cancel the request -/

/-- The changes do not cancel the request. -/
def Uncancelled (permit : Permit) (key : RequestKey) : Prop :=
  ∀ input, permit.cancels input → input.recordKey ≠ key

/-- What changes leave of a request, and of its tombstone unless they may cancel it. -/
structure Spares (codec : TimeCodec) (permit : Permit) (key : RequestKey) (db after : Database) :
    Prop where
  tombstone : Uncancelled permit key →
    after.admissionCancellations.lookup key = db.admissionCancellations.lookup key
  kept : db.idempotencyRecords.lookup key ≠ none → after.idempotencyRecords.lookup key ≠ none
  opened : after.idempotencyRecords.lookup key ≠ none → db.idempotencyRecords.lookup key ≠ none ∨
    ∃ input, permit.records input ∧ input.recordKey = key ∧ (Uncancelled permit key →
      input.operation = .stop ∨
        matchingAdmissionCancellation codec db input input.createdAt = .ok none)

theorem Spares.trans (first : Spares codec permit key db middle)
    (second : Spares codec permit key middle after) : Spares codec permit key db after where
  tombstone := fun spared => (second.tombstone spared).trans (first.tombstone spared)
  kept := fun recorded => second.kept (first.kept recorded)
  opened := by
    intro recorded
    rcases second.opened recorded with before | ⟨input, requested, own, unanswered⟩
    · exact first.opened before
    · refine .inr ⟨input, requested, own, fun spared => ?_⟩
      refine (unanswered spared).imp_right fun invisible => ?_
      unfold matchingAdmissionCancellation at invisible ⊢
      rwa [own, first.tombstone spared, ← own] at invisible

/-- A change of records that inserts one. -/
private theorem opened_spares
    (recorded : RecordOpened db.idempotencyRecords input token sessionId turnId records)
    (requested : permit.records input) (unanswered : input.operation = .stop ∨
      matchingAdmissionCancellation codec db input input.createdAt = .ok none)
    (tombstones : after.admissionCancellations = db.admissionCancellations)
    (written : after.idempotencyRecords = records) : Spares codec permit key db after := by
  obtain ⟨record, inserted, opened⟩ := recorded
  refine ⟨fun _ => by rw [tombstones], ?_, ?_⟩
  · intro before
    obtain ⟨found, recorded⟩ := Option.ne_none_iff_exists'.mp before
    rw [written, Table.lookup_insert_of_some inserted recorded]
    simp
  · intro there
    rw [written, Table.lookup_insert inserted] at there
    by_cases own : record.key = key
    · exact .inr ⟨input, requested, opened.key.symm.trans own, fun _ => unanswered⟩
    · rw [if_neg own] at there
      exact .inl there

/-- A change of records that updates some in place. -/
private theorem updated_spares
    (tombstones : after.admissionCancellations = db.admissionCancellations)
    (written : db.idempotencyRecords.updateOne hit move keeps = some after.idempotencyRecords) :
    Spares codec permit key db after := by
  obtain ⟨_, updated⟩ := Table.updateOne_eq_some.mp written
  have same : after.idempotencyRecords.lookup key ≠ none ↔
      db.idempotencyRecords.lookup key ≠ none := by
    rw [updated, Table.lookup_updateWhere]
    simp
  exact ⟨fun _ => by rw [tombstones], same.mpr, fun there => .inl (same.mp there)⟩

theorem change_spares (change : Change codec permit db held after held')
    (admitting : ¬permit.retires) : Spares codec permit key db after := by
  have same : ∀ {next : Database}, next.admissionCancellations = db.admissionCancellations →
      next.idempotencyRecords = db.idempotencyRecords → Spares codec permit key db next := by
    intro next tombstones records
    refine ⟨fun _ => by rw [tombstones], by simp [records], ?_⟩
    exact fun there => .inl (by rwa [records] at there)
  cases change with
  | started _ _ _ _ input _ unanswered _ _ _ recorded requested
  | appended _ _ _ input _ unanswered _ _ _ recorded requested =>
    exact opened_spares recorded requested (.inr unanswered.uncancelled) rfl rfl
  | stopOpened _ _ input isStop recorded requested =>
    exact opened_spares recorded requested (.inl isStop) rfl rfl
  | advanced _ _ _ _ _ _ recordFollows =>
    obtain ⟨_, _, moved, _⟩ := recordFollows
    exact updated_spares rfl moved
  | stopClosed _ _ _ _ _ _ _ _ _ _ _ closed =>
    obtain ⟨_, _, moved, _⟩ := closed
    exact updated_spares rfl moved
  | cancelled input _ others requested =>
    exact ⟨fun spared => others key (spared input requested).symm, id, .inl⟩
  | swept _ _ retiring | forgotten _ retiring | retired retiring => exact absurd retiring admitting
  | leaseSet | probesMarked | referenced | logged => exact same rfl rfl

theorem changes_spare (changes : Changes codec permit db held after held')
    (admitting : ¬permit.retires) : Spares codec permit key db after := by
  induction changes with
  | none => exact ⟨fun _ => rfl, id, .inl⟩
  | more _ change ih => exact ih.trans (change_spares change admitting)

/-! ## Retention -/

/-- What retention leaves of a request. -/
structure Fades (key : RequestKey) (db after : Database) : Prop where
  recorded : after.idempotencyRecords.lookup key ≠ none → db.idempotencyRecords.lookup key ≠ none
  tombstone : after.admissionCancellations.lookup key = db.admissionCancellations.lookup key ∨
    after.admissionCancellations.lookup key = none ∧
      ∃ row, db.admissionCancellations.lookup key = some row ∧ row.outcome = "cancelled"

theorem Fades.trans (first : Fades key db middle)
    (second : Fades key middle after) : Fades key db after where
  recorded := fun there => first.recorded (second.recorded there)
  tombstone := by
    rcases second.tombstone with same | ⟨gone, row, found, said⟩
    · rw [same]
      exact first.tombstone
    · rcases first.tombstone with same | ⟨missing, _⟩
      · exact .inr ⟨gone, row, same ▸ found, said⟩
      · rw [missing] at found
        cases found

theorem change_fades (change : Change codec retiring db held after held') :
    Fades key db after := by
  have spared : Spares codec retiring key db after → Fades key db after := by
    intro spares
    refine ⟨fun there => ?_, .inl (spares.tombstone fun _ => False.elim)⟩
    rcases spares.opened there with before | ⟨_, requested, _⟩
    · exact before
    · exact requested.elim
  have deleted : ∀ {gone : IdempotencyRow → Bool},
      (db.idempotencyRecords.deleteWhere gone).lookup key ≠ none →
      db.idempotencyRecords.lookup key ≠ none := by
    intro gone there before
    rw [Table.lookup_deleteWhere, before] at there
    exact there rfl
  cases change with
  | started admitting => exact absurd trivial admitting
  | appended _ _ _ _ _ _ _ _ _ _ requested | stopOpened _ _ _ _ _ requested
  | cancelled _ _ _ requested => exact requested.elim
  | advanced _ _ _ _ _ _ recordFollows =>
    obtain ⟨_, _, moved, _⟩ := recordFollows
    exact spared (updated_spares rfl moved)
  | stopClosed _ _ _ _ _ _ _ _ allowed => exact allowed.elim
  | @swept _ _ _ _ cancellations _ _ _ fewer pending =>
    refine ⟨id, ?_⟩
    change cancellations.lookup key = _ ∨ cancellations.lookup key = none ∧ _
    cases left : cancellations.lookup key with
    | some row =>
      obtain ⟨member, own⟩ := Table.lookup_eq_some.mp left
      exact .inl (Table.lookup_eq_some.mpr ⟨fewer row member, own⟩).symm
    | none =>
      cases found : db.admissionCancellations.lookup key with
      | none => exact .inl rfl
      | some row =>
        obtain ⟨member, own⟩ := Table.lookup_eq_some.mp found
        refine .inr ⟨rfl, row, rfl, by_contra fun waiting => ?_⟩
        exact Table.lookup_eq_none.mp left row (pending row member waiting) own
  | forgotten => exact ⟨deleted, .inl rfl⟩
  | retired _ removed =>
    obtain ⟨records, tombstones⟩ := deleteSessionMetadata_records removed
    refine ⟨?_, .inl (by rw [tombstones])⟩
    rw [records]
    exact deleted
  | leaseSet | probesMarked | referenced | logged => exact ⟨id, .inl rfl⟩

/-! ## Calls at a time -/

/-- The key a call presents a request under, and the time it looks at the
tombstone for. -/
def observes : StoreCall → Option (RequestKey × OffsetDateTime)
  | .beginSession _ _ context _ =>
    some (context.idempotency.recordKey, context.idempotency.createdAt)
  | .beginFollowUp _ _ _ _ _ _ context _ =>
    some (context.idempotency.recordKey, context.idempotency.createdAt)
  | .recordAdmissionCancellation _ input _ _ observedAt => some (input.recordKey, observedAt)
  | .reconcileAdmissionCancellation _ input _ _ observedAt => some (input.recordKey, observedAt)
  | _ => none

/-- The retention pass, which removes records and tombstones. -/
def isRetention : StoreCall → Bool
  | .pruneExpiredSessionMetadata _ _ _ _ => true
  | _ => false

theorem serve_admitting (keeps : isRetention call = false) :
    ¬(permitted codec db call).retires := by
  cases call <;> first | exact not_false | cases keeps

/-- The parts of a call to cancel an admission. -/
def cancellation : StoreCall →
    Option (IdempotencyInput × DurableCancellationOutcome × OffsetDateTime × Bool)
  | .recordAdmissionCancellation _ input _ outcome observedAt =>
    some (input, outcome, observedAt, false)
  | .reconcileAdmissionCancellation _ input _ outcome observedAt =>
    some (input, outcome, observedAt, true)
  | _ => none

theorem serve_cancels (asks : cancellation call = some (input, outcome, observedAt, reconciled))
    (ran : serve codec db call = (.ok reply, after)) :
    ∃ state, reply = .cancellation state ∧
      Cancels codec db input outcome observedAt reconciled state after := by
  cases call with
  | recordAdmissionCancellation operation _ expected _ _
  | reconcileAdmissionCancellation operation _ expected _ _ =>
    cases asks
    obtain ⟨state, done, rfl⟩ := transact_ok.mp ran
    exact ⟨state, rfl, recordAdmissionCancellation_cancels done⟩
  | beginSession | beginFollowUp | commitLifecycle | recordUpstreamRef | beginStop | confirmStop
  | markRestartRecoveryPending | pruneExpiredSessionMetadata | appendSafeLog => cases asks

/-- A call either cancels the request, or may not touch its tombstone. -/
theorem cancels_or_not (codec : TimeCodec) (db : Database) (call : StoreCall) (key : RequestKey) :
    (∃ input outcome observedAt reconciled, input.recordKey = key ∧
      cancellation call = some (input, outcome, observedAt, reconciled) ∧
      observes call = some (key, observedAt)) ∨ Uncancelled (permitted codec db call) key := by
  cases call with
  | recordAdmissionCancellation operation input expected outcome observedAt
  | reconcileAdmissionCancellation operation input expected outcome observedAt =>
    by_cases own : input.recordKey = key
    · exact .inl ⟨input, outcome, observedAt, _, own, rfl, by rw [← own]; rfl⟩
    · exact .inr fun other same => same ▸ own
  | beginSession | beginFollowUp | commitLifecycle | recordUpstreamRef | beginStop | confirmStop
  | markRestartRecoveryPending | pruneExpiredSessionMetadata | appendSafeLog =>
    exact .inr fun _ => False.elim

/-- A mark that counts is read off a tombstone. -/
private theorem tombstone_of_visible (shows : Shows codec db key slot)
    (seen : slot.visible time = some mark) :
    ∃ row outcome limit, db.admissionCancellations.lookup key = some row ∧
      slot.mark = some (markOf outcome, limit) ∧ markOf outcome = mark ∧
      row.outcome = outcome.token ∧ parseTime codec row.expiresAt = .ok limit ∧
      key.2.1 ≠ "stop" := by
  obtain ⟨limit, marked, _⟩ := Slot.visible_eq_some.mp seen
  have reads := shows.mark
  rw [marked] at reads
  generalize found : db.admissionCancellations.lookup key = tombstone at reads
  cases reads with
  | some said expires admission => exact ⟨_, _, limit, rfl, marked, rfl, said, expires, admission⟩

/-- A cancellation of the request is a step of it. -/
private theorem cancels_step (shows : Shows codec db input.recordKey slot)
    (cancels : Cancels codec db input outcome time reconciled state after) :
    ∃ next, Shows codec after input.recordKey next ∧ Slot.Step expiry time slot next ∧
      Agrees next time (stateVerdict state) := by
  cases cancels with
  | admitted recorded => exact ⟨slot, shows, .same, performed_of_matching shows recorded⟩
  | found _ visible =>
    exact ⟨slot, shows, .same, agrees_ofCancellation.mpr (matching_some shows visible)⟩
  | settled unrecorded visible _ ran =>
    have seen := matching_some shows visible
    obtain ⟨row, _, _, found, _, _, _, _, admission⟩ := tombstone_of_visible shows seen
    obtain ⟨cancellations, rfl, own, _⟩ := settleCancellation_ok ran
    obtain ⟨settled, buried, written⟩ := own row found
    refine ⟨_, ?_, .settle (unperformed shows unrecorded) seen,
      Slot.visible_eq_some.mpr ⟨_, rfl, fun _ => lt_expiry time⟩⟩
    refine ⟨shows.performed, ?_⟩
    rw [written]
    exact .some buried.outcome buried.expires admission
  | suspended unrecorded visible =>
    obtain ⟨row, existing, limit, found, marked, isCancelled, _, expires, admission⟩ :=
      tombstone_of_visible shows (matching_some shows visible)
    rw [isCancelled] at marked
    refine ⟨_, ?_, .suspend (unperformed shows unrecorded) marked,
      Slot.visible_eq_some.mpr ⟨limit, rfl, fun impossible => by cases impossible⟩⟩
    refine ⟨shows.performed, ?_⟩
    rw [suspendCancellation_own found]
    have settling : Marked codec input.recordKey
        (some { row with outcome := DurableCancellationOutcome.token .recoveryPending })
        (some (markOf .recoveryPending, limit)) := .some rfl expires admission
    exact settling
  | inserted unrecorded invisible ran =>
    obtain ⟨cancellations, row, rfl, admission, buried, written, _⟩ := insertCancellation_ok ran
    refine ⟨_, ?_, .mark (unperformed shows unrecorded) (matching_none shows invisible)
      (markOf outcome), agrees_ofCancellation.mpr (Slot.visible_eq_some.mpr
        ⟨_, rfl, fun _ => lt_expiry time⟩)⟩
    refine ⟨shows.performed, ?_⟩
    rw [written]
    refine .some buried.outcome buried.expires ?_
    rcases admission with run | steer
    · simp [IdempotencyInput.recordKey, run, idempotentOperationToken]
    · simp [IdempotencyInput.recordKey, steer, idempotentOperationToken]

/-- Only a call for the request, at its time, opens its record, unless it is not
a request for an admission. -/
private theorem opened_by (requested : (permitted codec db call).records input)
    (unanswered : input.operation = .stop ∨
      matchingAdmissionCancellation codec db input input.createdAt = .ok none)
    (ran : serve codec db call = (.ok reply, after)) :
    input.recordKey.2.1 = "stop" ∨
      (observes call = some (input.recordKey, input.createdAt) ∧
        matchingAdmissionCancellation codec db input input.createdAt = .ok none) := by
  have stop : input.operation = .stop → input.recordKey.2.1 = "stop" := by
    intro isStop
    simp [IdempotencyInput.recordKey, isStop, idempotentOperationToken]
  cases call with
  | beginSession session made context now
  | beginFollowUp sessionId expected turnId policy now requiresThread context =>
    refine unanswered.imp stop fun invisible => ⟨?_, invisible⟩
    rw [show input = context.idempotency from requested]
    rfl
  | beginStop sessionId expectedTurnId request now =>
    obtain ⟨outcome, done, _⟩ := transact_ok.mp ran
    unfold beginStop at done
    split at done
    · rename_i isStop
      exact .inl (stop (requested ▸ isStop))
    · cases done
  | confirmStop claim observation now =>
    exact .inl (stop (requested ▸ claim.isStop))
  | commitLifecycle | recordUpstreamRef | markRestartRecoveryPending | recordAdmissionCancellation
  | reconcileAdmissionCancellation | pruneExpiredSessionMetadata | appendSafeLog => exact requested.elim

/-- A step that leaves the tombstone: the record stays, or is opened. -/
private theorem spares_step (shows : Shows codec db key slot)
    (spares : Spares codec permit key db after) (uncancelled : Uncancelled permit key)
    (opened : ∀ input, permit.records input → input.recordKey = key → (input.operation = .stop ∨
      matchingAdmissionCancellation codec db input input.createdAt = .ok none) →
      slot.visible time = none) :
    ∃ next, Shows codec after key next ∧ Slot.Step expiry time slot next := by
  have mark : Marked codec key (after.admissionCancellations.lookup key) slot.mark := by
    rw [spares.tombstone uncancelled]
    exact shows.mark
  by_cases before : db.idempotencyRecords.lookup key = none
  · have first := unperformed shows before
    by_cases now : after.idempotencyRecords.lookup key = none
    · exact ⟨slot, ⟨by rw [first, now]; rfl, mark⟩, .same⟩
    · rcases spares.opened now with there | ⟨input, requested, own, unanswered⟩
      · exact absurd before there
      · have free := opened input requested own (unanswered uncancelled)
        refine ⟨_, ?_, .perform first free⟩
        exact ⟨(Option.isSome_iff_ne_none.mpr now).symm, mark⟩
  · refine ⟨slot, ⟨?_, mark⟩, .same⟩
    rw [shows.performed, Option.isSome_iff_ne_none.mpr before,
      Option.isSome_iff_ne_none.mpr (spares.kept before)]

section
variable (represents : Represents codec db held)
include represents

/-- A call for the request that does not cancel it admits it. -/
private theorem begin_recorded (asks : observes call = some (key, time))
    (uncancelled : Uncancelled (permitted codec db call) key)
    (ran : serve codec db call = (.ok reply, after)) :
    replyVerdict reply = some .admitted ∧ after.idempotencyRecords.lookup key ≠ none := by
  cases call with
  | beginSession session made context now
  | beginFollowUp sessionId expected turnId policy time requiresThread context now =>
    cases asks
    obtain ⟨outcome, _, rfl⟩ := transact_ok.mp ran
    obtain ⟨_, same, began⟩ := serve_began represents ran
    cases same
    exact ⟨rfl, began.recorded⟩
  | recordAdmissionCancellation operation input expected outcome observedAt
  | reconcileAdmissionCancellation operation input expected outcome observedAt =>
    cases asks
    exact absurd rfl (uncancelled input rfl)
  | commitLifecycle | recordUpstreamRef | beginStop | confirmStop | markRestartRecoveryPending
  | pruneExpiredSessionMetadata | appendSafeLog => cases asks

/-- Every call but the retention pass is a step of the request, and what is said
of the request then agrees with it. -/
theorem serve_step (shows : Shows codec db key slot) (keeps : isRetention call = false)
    (atTime : ∀ observedAt, observes call = some (key, observedAt) → observedAt = time) :
    ∃ next, Shows codec (serve codec db call).2 key next ∧ Slot.Step expiry time slot next ∧
      ∀ reply verdict, (serve codec db call).1 = .ok reply → observes call = some (key, time) →
        replyVerdict reply = some verdict → Agrees next time verdict := by
  cases outcome : (serve codec db call).1 with
  | error e =>
    rw [serve_error outcome]
    refine ⟨slot, shows, .same, ?_⟩
    intro reply verdict replied
    cases replied
  | ok reply =>
    have ran : serve codec db call = (.ok reply, (serve codec db call).2) := Prod.ext outcome rfl
    rcases cancels_or_not codec db call key with
      ⟨input, wanted, observedAt, reconciled, rfl, asks, observed⟩ | uncancelled
    · obtain ⟨state, rfl, cancels⟩ := serve_cancels asks ran
      rw [atTime observedAt observed] at cancels
      obtain ⟨next, showsNext, step, agrees⟩ := cancels_step shows cancels
      refine ⟨next, showsNext, step, ?_⟩
      intro reply verdict replied _ said
      cases replied
      cases said
      exact agrees
    · obtain ⟨held', _, changes⟩ := serve_changes represents ran
      have free : ∀ input, (permitted codec db call).records input → input.recordKey = key →
          (input.operation = .stop ∨
            matchingAdmissionCancellation codec db input input.createdAt = .ok none) →
          slot.visible time = none := by
        rintro input requested rfl unanswered
        rcases opened_by requested unanswered ran with isStop | ⟨observed, invisible⟩
        · -- a key of another operation has no tombstone
          cases seen : slot.visible time with
          | none => rfl
          | some mark =>
            obtain ⟨_, _, _, _, _, _, _, _, admission⟩ := tombstone_of_visible shows seen
            exact absurd isStop admission
        · rw [← atTime input.createdAt observed]
          exact matching_none shows invisible
      obtain ⟨next, showsNext, step⟩ :=
        spares_step shows (changes_spare changes (serve_admitting keeps)) uncancelled free
      refine ⟨next, showsNext, step, ?_⟩
      intro other verdict replied asks said
      cases replied
      obtain ⟨saysAdmitted, recorded⟩ := begin_recorded represents asks uncancelled ran
      cases saysAdmitted.symm.trans said
      exact showsNext.performed.trans (Option.isSome_iff_ne_none.mpr recorded)

/-- A call for the request is a step at the time it looks. -/
theorem serve_step_asked (shows : Shows codec db key slot)
    (asks : observes call = some (key, time)) :
    ∃ next, Shows codec (serve codec db call).2 key next ∧ Slot.Step expiry time slot next ∧
      ∀ reply verdict, (serve codec db call).1 = .ok reply → replyVerdict reply = some verdict →
        Agrees next time verdict := by
  have keeps : isRetention call = false := by
    cases call <;> first | rfl | cases asks
  have atTime : ∀ observedAt, observes call = some (key, observedAt) → observedAt = time := by
    intro observedAt observed
    rw [asks] at observed
    cases observed
    rfl
  obtain ⟨next, showsNext, step, agrees⟩ := serve_step represents shows keeps atTime
  exact ⟨next, showsNext, step, fun reply verdict replied => agrees reply verdict replied asks⟩

/-- The retention pass forgets part of a request. -/
theorem serve_fades (retention : isRetention call = true) :
    Fades key db (serve codec db call).2 := by
  obtain ⟨held', changes⟩ := serve_changed represents call
  have isRetiring : permitted codec db call = retiring := by
    cases call <;> first | rfl | cases retention
  rw [isRetiring] at changes
  generalize (serve codec db call).2 = after at changes
  induction changes with
  | none => exact ⟨id, .inl rfl⟩
  | more _ change ih => exact ih.trans (change_fades change)

/-- Whatever record a call makes, it makes for a request of its own. -/
theorem serve_opens (before : db.idempotencyRecords.lookup key = none)
    (there : (serve codec db call).2.idempotencyRecords.lookup key ≠ none) :
    ∃ input, (permitted codec db call).records input ∧ input.recordKey = key := by
  cases retention : isRetention call with
  | true => exact absurd before ((serve_fades represents retention).recorded there)
  | false =>
    obtain ⟨held', changes⟩ := serve_changed represents call
    rcases (changes_spare changes (serve_admitting retention)).opened there with
      known | ⟨input, requested, own, _⟩
    · exact absurd before known
    · exact ⟨input, requested, own⟩

end

theorem Fades.shows (fades : Fades key db after) (shows : Shows codec db key slot) :
    ∃ next, Shows codec after key next ∧ Slot.Fade slot next := by
  have performed : (after.idempotencyRecords.lookup key).isSome = true → slot.performed = true := by
    rw [shows.performed, Option.isSome_iff_ne_none, Option.isSome_iff_ne_none]
    exact fades.recorded
  rcases fades.tombstone with same | ⟨gone, row, found, said⟩
  · refine ⟨⟨(after.idempotencyRecords.lookup key).isSome, slot.mark⟩, ⟨rfl, ?_⟩, performed, .inl rfl⟩
    rw [same]
    exact shows.mark
  · refine ⟨⟨(after.idempotencyRecords.lookup key).isSome, none⟩, ⟨rfl, ?_⟩, performed,
      .inr ⟨rfl, ?_⟩⟩
    · rw [gone]
      exact .none
    · have reads := shows.mark
      rw [found] at reads
      generalize slot.mark = marked at reads
      cases reads with
      | @some _ outcome limit written =>
        cases outcome with
        | cancelled => exact ⟨limit, rfl⟩
        | recoveryPending => exact absurd (said.symm.trans written) (by decide)

end Satelle.RequestSlots
