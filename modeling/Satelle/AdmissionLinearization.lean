import Satelle.AdmissionFlow

/-! Admissions and their cancellations, end to end. Whatever a call returns was
said by the store, and the store says one thing only of a request for as long as
its tombstone counts and its rows are left. -/
namespace Satelle.AdmissionLinearization
open Satelle.Core Lib Host StoreEffects StoreHistory RequestSlots CancellationExclusion
open AdmissionVerdicts CapacityFlow AdmissionFlow StoreRefinement SessionLifecycle
open CapacityExclusion (Excluded)

variable {Reply : Type}

/-! ## What may be said -/

variable {host after : AdmissionHost Reply}

def Genuine (db : Database) (request : OperationRequest) : SharedResult Reply → Prop
  | .ok outcome => BacksOutcome db request outcome
  | .error _ => True

def GenuineCancel (db : Database) (request : OperationRequest) :
    Except SatelleError AdmissionCancellationOutcome → Prop
  | .ok (.admitted session turnId) => Recorded db request session.sessionId turnId
  | .ok .cancelled => Buried db request
  | .ok .reconciledCancelled => False
  | .ok .recoveryPending | .error _ => True

theorem genuine_vocabulary (db : Database) (request : OperationRequest) :
    Vocabulary (Genuine db request : SharedResult Reply → Prop) (GenuineCancel db request) where
  error := fun _ => trivial
  cancelError := fun _ => trivial
  pending := trivial
  passed := by
    intro outcome said
    cases outcome with
    | admission => exact said
    | stop | apiToken | providerBindingAuthorization | providerSecretProvisioning
    | storageMigration => trivial

/-- An admission is said to be the recorded one, a cancellation to have left a
tombstone. -/
def genuine (Reply : Type) (request : OperationRequest) : Account Reply request where
  good := fun db => Genuine db request
  goodCancel := fun db => GenuineCancel db request
  vocabulary := fun db => genuine_vocabulary db request
  named := fun named => named.recorded

/-- What the store holds of a request is still there. -/
structure Carries (request : OperationRequest) (db after : Database) : Prop where
  recorded : ∀ sessionId turnId, Recorded db request sessionId turnId →
    Recorded after request sessionId turnId
  buried : Buried db request → Buried after request

theorem Carries.refl (request : OperationRequest) (db : Database) : Carries request db db :=
  ⟨fun _ _ => id, id⟩

theorem Carries.genuine {after} (carries : Carries request db after) :
    (genuine Reply request).Carries db after where
  good := by
    intro result said
    cases result with
    | error => trivial
    | ok outcome =>
      cases outcome with
      | admission session turnId => exact carries.recorded _ _ said
      | stop | apiToken | providerBindingAuthorization | providerSecretProvisioning
      | storageMigration => trivial
  goodCancel := by
    intro result said
    cases result with
    | error => trivial
    | ok outcome =>
      cases outcome with
      | admitted session turnId => exact carries.recorded _ _ said
      | cancelled => exact carries.buried said
      | reconciledCancelled => exact said.elim
      | recoveryPending => trivial
  recorded := carries.recorded

/-! ## Steps of the Host -/

/-- The key and the time at which an action looks for a tombstone. -/
def observed (host : AdmissionHost Reply) : HostAction Reply → Option (RequestKey × OffsetDateTime)
  | .consult _ input _ => some (input.recordKey, input.createdAt)
  | .operate id .commit =>
    match host.operations id with
    | .committing admission => observes admission
    | _ => none
  | .serve call => observes call
  | _ => none

/-- The tombstone of the request counts whenever it is looked for, and neither it
nor the record of the request is taken away. -/
structure InForce (codec : TimeCodec) (key : RequestKey) (host : AdmissionHost Reply)
    (action : HostAction Reply) (after : AdmissionHost Reply) : Prop where
  counts : ∀ seen ∈ observed host action, seen.1 = key → Counts codec host.store key seen.2
  leaves : Leaves key host.store after.store

def ForceRun (codec : TimeCodec) (key : RequestKey) :
    AdmissionHost Reply → AdmissionHost Reply → Prop :=
  Relation.ReflTransGen fun host after =>
    ∃ action, host.perform codec action = some after ∧ InForce codec key host action after

/-- The transaction of an action looks for the tombstone when the action does. -/
theorem observed_of_transaction (uses : transactionOf host action = some call)
    (observes : observes call = some seen) : seen ∈ observed host action := by
  cases action with
  | serve =>
    cases uses
    exact observes
  | consult id input expected =>
    simp only [transactionOf] at uses
    split at uses
    · obtain ⟨durable, _, rfl⟩ := Option.map_eq_some_iff.mp uses
      split at observes
      all_goals exact observes
    · cases uses
  | operate id step =>
    cases step with
    | commit =>
      simp only [transactionOf] at uses
      split at uses
      · rename_i isPlace
        cases uses
        simp only [observed, isPlace]
        exact observes
      · cases uses
    | replay | finish | ready | enter | acknowledge | dispatch | fail => cases uses
  | call | advance | fail | panic | answer | request => cases uses

/-- What holds of a request all the time. -/
structure Invariant (codec : TimeCodec) (request : OperationRequest) (host : AdmissionHost Reply) :
    Prop where
  store : ReachableStore codec host.store
  exclusive : Exclusive codec host.store (requestKey request)
  excluded : Excluded host.system
  truthful : Truthful (Genuine host.store request) (GenuineCancel host.store request) request
    host.system
  unused : ∀ id, host.system.threads id = none → host.operations id = .replaying
  operations : ∀ id token pc, host.system.threads id = some (.execute request token pc) →
    Operating host.store request (host.operations id)

theorem Invariant.tracked (invariant : Invariant codec request host) :
    Tracked codec (genuine Reply request) host :=
  ⟨invariant.store, invariant.excluded, invariant.truthful, invariant.unused, invariant.operations⟩

theorem invariant_of_tracked (tracked : Tracked codec (genuine Reply request) host)
    (exclusive : Exclusive codec host.store (requestKey request)) :
    Invariant codec request host :=
  ⟨tracked.store, exclusive, tracked.excluded, tracked.truthful, tracked.unused,
    tracked.operations⟩

/-- Every step of the Host while the request is in force keeps the invariant. -/
theorem perform_invariant (invariant : Invariant codec request host)
    (isAdmission : request.isAdmission = true)
    (performed : host.perform codec action = some after)
    (force : InForce codec (requestKey request) host action after) :
    Invariant codec request after := by
  have kept : Exclusive codec after.store (requestKey request) ∧
      Carries request host.store after.store := by
    have left := force.leaves
    rw [(perform_moved performed).store] at left ⊢
    cases uses : transactionOf host action with
    | none => exact ⟨invariant.exclusive, .refl request host.store⟩
    | some call =>
      rw [uses] at left
      obtain ⟨held, represents⟩ := reachable_represents invariant.store
      refine ⟨serve_exclusive represents invariant.exclusive fun time observes =>
        force.counts _ (observed_of_transaction uses observes) rfl, ?_, left.2⟩
      intro sessionId turnId recorded
      have there : host.store.idempotencyRecords.lookup (requestKey request) ≠ none := by
        obtain ⟨record, found, _⟩ := recorded
        simp [found]
      exact recorded_stays represents (left.1 there) recorded
  refine invariant_of_tracked ?_ kept.1
  refine perform_tracked invariant.tracked isAdmission performed kept.2.genuine ?_
  intro closure answered
  generalize after.store = db at answered ⊢
  cases answered with
  | resolved presents told =>
    exact resolveClosure_backs invariant.store isAdmission presents invariant.exclusive told
  | persisted presents asked told =>
    exact (persisted_backs invariant.store isAdmission presents invariant.exclusive asked told).1

/-! ## Runs -/

theorem ForceRun.invariant (run : ForceRun codec (requestKey request) host after)
    (invariant : Invariant codec request host) (isAdmission : request.isAdmission = true) :
    Invariant codec request after := by
  induction run with
  | refl => exact invariant
  | tail _ step ih =>
    obtain ⟨action, performed, force⟩ := step
    exact perform_invariant ih isAdmission performed force

theorem ForceRun.leaves (run : ForceRun codec key host after) :
    Leaves key host.store after.store := by
  induction run with
  | refl => exact ⟨fun held => held, fun held => held⟩
  | tail _ step ih =>
    obtain ⟨_, _, force⟩ := step
    exact ⟨fun held => force.leaves.1 (ih.1 held), fun held => force.leaves.2 (ih.2 held)⟩

/-- A store before its first Session holds nothing of the request. -/
theorem new_invariant (fresh : Fresh start) (request : OperationRequest) :
    Invariant codec request (AdmissionHost.new start : AdmissionHost Reply) := by
  refine invariant_of_tracked (new_tracked ⟨start, fresh, .refl⟩) ?_
  have unmarked : start.admissionCancellations.lookup (requestKey request) = none := by
    apply Table.lookup_eq_none.mpr
    intro row member
    rw [fresh.cancellations] at member
    cases member
  exact ⟨_, unmarked_shows unmarked, fun _ => rfl⟩

/-! ## Linearization -/

/-- What a call that has executed has returned. -/
def returnedResult : ExecutePc Reply → Option (SharedResult Reply)
  | .returned result | .joined _ result | .retired _ (some result) => some result
  | _ => none

/-- The call has returned an admission of this Turn. -/
def ReturnsAdmitted (host : AdmissionHost Reply) (request : OperationRequest) (id : ThreadId)
    (session : PublicSession) (turnId : TurnId) : Prop :=
  ∃ token pc, host.system.threads id = some (.execute request token pc) ∧
    returnedResult pc = some (.ok (.admission session turnId))

/-- The call has returned that the admission is cancelled. -/
def ReturnsCancelled (host : AdmissionHost Reply) (request : OperationRequest) (id : ThreadId) :
    Prop :=
  host.system.threads id = some (.cancel request (.returned (.ok .cancelled)))

/-- No admission of the request is in the store. -/
def Unadmitted (host : AdmissionHost Reply) (request : OperationRequest) : Prop :=
  host.store.idempotencyRecords.lookup (requestKey request) = none

/-- The store holds this admission of the request, and no other. -/
def Durable (codec : TimeCodec) (host : AdmissionHost Reply) (request : OperationRequest)
    (sessionId : SessionId) (turnId : TurnId) : Prop :=
  Recorded host.store request sessionId turnId ∧
    ∃ session turn, loadSession codec host.store sessionId = .ok (some session) ∧
      turn ∈ session.turns ∧ turn.id = turnId

section
variable (invariant : Invariant codec request host)
include invariant

theorem Invariant.durable
    (isAdmission : request.isAdmission = true)
    (recorded : Recorded host.store request sessionId turnId) :
    Durable codec host request sessionId turnId := by
  refine ⟨recorded, ?_⟩
  obtain ⟨record, found, _, ofSession, ofTurn⟩ := recorded
  obtain ⟨held, represents, track⟩ := AdmissionRecords.reachable_records invariant.store
  obtain ⟨member, _⟩ := Table.lookup_eq_some.mp found
  obtain ⟨session, index, turn, known, admits⟩ :=
    track.named record member (isAdmission_of_lookup isAdmission found)
  have sameSession : session.id = sessionId := by
    have texts := admits.ofSession
    rw [ofSession, Option.some.injEq, PublicId.text_inj] at texts
    exact texts.symm
  have sameTurn : turn.id = turnId := by
    have texts := admits.ofTurn
    rw [ofTurn, Option.some.injEq, PublicId.text_inj] at texts
    exact texts.symm
  refine ⟨session, turn, ?_, List.mem_of_getElem? admits.place, sameTurn⟩
  rw [represents.load, ← sameSession, known]

theorem Invariant.admitted {id : ThreadId}
    (returned : ReturnsAdmitted host request id session turnId) : ¬Unadmitted host request := by
  obtain ⟨token, pc, there, isReturned⟩ := returned
  have said : CapacitySteps.executeSays pc = some (.ok (.admission session turnId)) := by
    cases pc with
    | returned | joined => exact isReturned
    | retired _ result =>
      cases result with
      | none => cases isReturned
      | some => exact isReturned
    | probing | resolving | resolved | installing | leading | finishing | settling | persisting
    | clearing | releasing | unwinding | unwindClearing | unwindReleasing | following
    | panicked => cases isReturned
  obtain ⟨record, found, _⟩ := invariant.truthful.threads id _ there rfl _ said
  rw [Unadmitted, found]
  simp

theorem Invariant.cancelled {id : ThreadId}
    (returned : ReturnsCancelled host request id) : Buried host.store request :=
  invariant.truthful.threads id _ returned rfl _ rfl

theorem Invariant.unadmitted
    (buried : Buried host.store request) : Unadmitted host request :=
  invariant.exclusive.unrecorded buried

end

instance (codec : TimeCodec) (row : AdmissionCancellationRow) (time : OffsetDateTime) :
    Decidable (Expired codec row time) :=
  inferInstanceAs (Decidable (_ = _))

instance (codec : TimeCodec) (db : Database) (key : RequestKey) (time : OffsetDateTime) :
    Decidable (Counts codec db key time) :=
  inferInstanceAs (Decidable (∀ row ∈ db.admissionCancellations.lookup key, ¬Expired codec row time))

instance (key : RequestKey) (db after : Database) : Decidable (Leaves key db after) :=
  inferInstanceAs (Decidable (_ ∧ _))

/-- The actions one after the other. -/
def performAll (codec : TimeCodec) (host : AdmissionHost Reply) :
    List (HostAction Reply) → Option (AdmissionHost Reply)
  | [] => some host
  | action :: rest => (host.perform codec action).bind (performAll codec · rest)

/-- The actions one after the other, as long as the request is in force. -/
def forceAll (codec : TimeCodec) (key : RequestKey) (host : AdmissionHost Reply) :
    List (HostAction Reply) → Option (AdmissionHost Reply)
  | [] => some host
  | action :: rest => (host.perform codec action).bind fun after =>
    if (∀ seen ∈ observed host action, seen.1 = key → Counts codec host.store key seen.2) ∧
        Leaves key host.store after.store then
      forceAll codec key after rest
    else none

theorem forceRun_of_forceAll (performed : forceAll codec key host actions = some after) :
    ForceRun codec key host after := by
  induction actions generalizing host with
  | nil =>
    cases performed
    exact .refl
  | cons action rest ih =>
    obtain ⟨next, first, others⟩ := Option.bind_eq_some_iff.mp performed
    split at others
    · rename_i force
      exact .head ⟨action, first, force.1, force.2⟩ (ih others)
    · cases others

def sampleAdmission : OperationRequest :=
  ⟨"principal-test", .run, "request-test", sampleDigest, 1, 1⟩

/-- The instants at the ends of days. -/
def dayCodec : TimeCodec := tableCodec [
  (seconds 0, "1970-01-01T00:00:00Z"), (seconds 86400, "1970-01-02T00:00:00Z"),
  (seconds 172800, "1970-01-03T00:00:00Z")] (by decide)

/-- A call cancels the sample request at a second. -/
def cancelling (second : Nat) : List (HostAction Unit) :=
  [.call 0 (.cancel sampleAdmission .probing), .advance 0,
    .consult 0 (sampleInput .run second) none, .advance 0,
    .consult 0 (sampleInput .run second) none, .advance 0]

/-- A call admits it. -/
def admitting (second : Nat) : List (HostAction Unit) :=
  [.call 1 (.execute sampleAdmission 0 .probing), .advance 1,
    .consult 1 (sampleInput .run second) none, .advance 1, .advance 1,
    .operate 1 (.replay (sampleInput .run second) none),
    .operate 1 (.ready (.beginSession sampleSession sampleSession_reachable
      (sampleContext .run second sampleToken) (seconds second))),
    .operate 1 .enter, .operate 1 .commit, .operate 1 .acknowledge, .operate 1 .dispatch,
    .advance 1, .advance 1, .advance 1]

end Satelle.AdmissionLinearization
