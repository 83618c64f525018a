import Satelle.AdmissionVerdicts
import Satelle.CapacityFlow

/-! Calls of admissions over the store. The store changes only by the transaction
of a step, a call stays what it is, and what is said of a request stays true for as
long as the store keeps what it was said of. -/
namespace Satelle.AdmissionFlow
open Host StoreEffects StoreHistory RequestSlots
open AdmissionVerdicts CapacityFlow SessionLifecycle
open CapacityExclusion (Excluded performed_of_perform threads_moved new_excluded token_excluded)

variable {Reply : Type}

/-! ## Calls -/

variable {host after : AdmissionHost Reply} {id : ThreadId}

theorem within_store (performed : host.within action = some after) :
    after.store = host.store ∧ after.operations = host.operations ∧
      host.system.perform action = some after.system := by
  obtain ⟨system, moved, rfl⟩ := Option.map_eq_some_iff.mp performed
  exact ⟨rfl, rfl, moved⟩

/-- The slot has the call that it was given. -/
theorem within_call (made : host.within (.call id thread) = some after) :
    host.system.threads id = none ∧ after.system.threads id = some thread ∧
      ∀ other, other ≠ id → after.system.threads other = host.system.threads other := by
  obtain ⟨_, _, called⟩ := within_store made
  simp only [System.perform, Option.ite_none_right_eq_some] at called
  obtain ⟨⟨unused, _⟩, moved⟩ := called
  rw [← Option.some.inj moved]
  refine ⟨unused, by simp [System.moved], ?_⟩
  intro other different
  simp [System.moved, different]

/-- The call has returned, or was ended by a panic. -/
def past : ExecutePc Reply → Bool
  | .returned _ | .joined _ _ | .retired _ _ | .panicked => true
  | _ => false

/-- Where a call that executes comes from: it was there, or has just been made. -/
def Before (system : System Reply) (action : Action Reply) (id : ThreadId)
    (request : OperationRequest) (token : TokenId) (pc : ExecutePc Reply) : Prop :=
  (∃ pc', system.threads id = some (.execute request token pc') ∧
    (past pc' = true → pc = pc')) ∨
  (system.threads id = none ∧ action = .call id (.execute request token pc))

/-- The calls after a step of the slot were there before, or are new. -/
theorem thread_before {system after : System Reply}
    (performed : system.perform action = some after) :
    (after.threads id = none → system.threads id = none) ∧
    ∀ request token pc, after.threads id = some (.execute request token pc) →
      Before system action id request token pc := by
  have still : ∀ request token pc, system.threads id = some (.execute request token pc) →
      Before system action id request token pc :=
    fun _ _ pc there => .inl ⟨pc, there, fun _ => rfl⟩
  cases performed_of_perform performed with
  | @called other thread unused _ =>
    refine ⟨fun gone => ?_, fun request token pc isNew => ?_⟩
    · by_cases own : id = other
      · exact own ▸ unused
      · simpa [System.moved, own] using gone
    · rcases threads_moved.mp isNew with ⟨rfl, rfl⟩ | ⟨_, before⟩
      · exact .inr ⟨unused, rfl⟩
      · exact still request token pc before
  | @moved _ other thread _ _ there stepped =>
    refine ⟨fun gone => ?_, fun request token pc isNext => ?_⟩
    · by_cases own : id = other
      · simp [System.moved, own] at gone
      · simpa [System.moved, own] using gone
    · rcases threads_moved.mp isNext with ⟨rfl, rfl⟩ | ⟨_, before⟩
      · cases stepped with
        | @executeAdvance _ _ _ _ pc' step | @executeResume _ _ _ _ _ pc' step =>
          refine .inl ⟨pc', there, fun isOver => ?_⟩
          cases pc' <;> first | (cases isOver; done) | cases step
      · exact still request token pc before
  | token => exact ⟨fun gone => gone, still⟩

/-! ## Transactions -/

/-- The transaction of an action. -/
def transactionOf (host : AdmissionHost Reply) : HostAction Reply → Option StoreCall
  | .consult id input expectedSessionId =>
    match (host.system.threads id).bind Thread.closure with
    | some (_, .persistCancellation outcome) => persistCall input expectedSessionId outcome
    | _ => none
  | .operate id .commit =>
    match host.operations id with
    | .committing admission => some admission
    | _ => none
  | .serve call => some call
  | _ => none

/-- The store after a transaction, if there is one. -/
def stored (codec : TimeCodec) (db : Database) : Option StoreCall → Database
  | none => db
  | some call => (serve codec db call).2

/-- Only the transaction of an operation changes the store. -/
private theorem step_store {after}
    (stepped : AdmissionPc.step codec request db token pc step = some (after, token', next)) :
    (after = db ∧ step ≠ .commit) ∨ ∃ admission, pc = .committing admission ∧ step = .commit ∧
      after = (serve codec db admission).2 := by
  unfold AdmissionPc.step at stepped
  split at stepped
  case h_7 admission =>
    refine .inr ⟨admission, rfl, rfl, ?_⟩
    split at stepped
    · rename_i ran
      cases stepped
      rw [ran]
    · rename_i ran
      cases stepped
      rw [ran]
    · cases stepped
  all_goals left
  all_goals repeat' split at stepped
  all_goals first
    | (cases stepped; done)
    | (cases stepped; exact ⟨rfl, by simp⟩)
    | (obtain ⟨_, _, made⟩ := Option.map_eq_some_iff.mp stepped; cases made; exact ⟨rfl, by simp⟩)

/-- What a step of an operation is. -/
theorem operate_ok (performed : host.operate codec id step = some after) :
    ∃ request tokenId entry store token next,
      host.system.threads id = some (.execute request tokenId (.leading entry)) ∧
      request.isAdmission = true ∧
      (host.operations id).step codec request host.store (host.system.capacity.tokens tokenId)
        step = some (store, token, next) ∧
      host.operated id tokenId store token next = some after ∧ after.store = store := by
  unfold AdmissionHost.operate at performed
  split at performed
  · rename_i request tokenId entry there
    split at performed
    · rename_i isAdmission
      obtain ⟨⟨store, token, next⟩, stepped, moved⟩ := Option.bind_eq_some_iff.mp performed
      refine ⟨request, tokenId, entry, store, token, next, there, isAdmission, stepped, moved, ?_⟩
      cases next with
      | goes pc =>
        cases moved
        rfl
      | returns => exact (within_store moved).1
    · cases performed
  · cases performed

/-- What a closure of the request answers, and the store it leaves. -/
inductive Answered (codec : TimeCodec) (request : OperationRequest) (db : Database) :
    Closure → Except SatelleError (DurableAdmissionOutcome Reply) → Database → Prop where
  | resolved (presents : request.presents input = true)
      (told : resolveClosure codec input expected db = answer) :
      Answered codec request db .resolve answer db
  | persisted (presents : request.presents input = true)
      (asked : persistCall input expected outcome = some call)
      (told : persisted (serve codec db call).1 = some answer) :
      Answered codec request db (.persistCancellation outcome) answer (serve codec db call).2

/-- What a closure that asks the store is. -/
theorem consult_ok (performed : host.consult codec id input expected = some after) :
    ∃ request closure answer,
      (host.system.threads id).bind Thread.closure = some (request, closure) ∧
      request.isAdmission = true ∧ Answered codec request host.store closure answer after.store ∧
      after.store = stored codec host.store (transactionOf host (.consult id input expected)) ∧
      ({ host with store := after.store } : AdmissionHost Reply).within
        (.resume id (.durable answer)) = some after := by
  unfold AdmissionHost.consult at performed
  split at performed
  · rename_i request calling
    split at performed
    · rename_i valid
      have same := (within_store performed).1
      refine ⟨request, .resolve, _, calling, valid.1, same ▸ .resolved valid.2 rfl, ?_,
        same ▸ performed⟩
      simp only [transactionOf, calling, stored, same]
    · cases performed
  · rename_i request outcome calling
    split at performed
    · rename_i valid
      obtain ⟨call, asked, performed⟩ := Option.bind_eq_some_iff.mp performed
      obtain ⟨answer, told, performed⟩ := Option.bind_eq_some_iff.mp performed
      have same : after.store = (serve codec host.store call).2 := (within_store performed).1
      refine ⟨request, .persistCancellation outcome, answer, calling, valid.1,
        same ▸ .persisted valid.2 asked told, ?_, same ▸ performed⟩
      simp only [transactionOf, calling, asked, stored, same]
    · cases performed
  · cases performed
  · cases performed

/-- What an action does to the store, to the calls and to the operations. A call is made only by
the action that makes it, and an operation goes on only by a step of its call. -/
structure HostMoved (codec : TimeCodec) (host after : AdmissionHost Reply)
    (action : HostAction Reply) : Prop where
  store : after.store = stored codec host.store (transactionOf host action)
  threads : after.system.threads = host.system.threads ∨
    ∃ (system : System Reply) (slot : Action Reply), system.threads = host.system.threads ∧
      system.perform slot = some after.system ∧
      ∀ id thread, slot = .call id thread → action = .call id thread
  operations : ∀ id, after.operations id = host.operations id ∨
    ∃ request tokenId entry step token pc,
      host.system.threads id = some (.execute request tokenId (.leading entry)) ∧
      (host.operations id).step codec request host.store (host.system.capacity.tokens tokenId)
        step = some (after.store, token, (.goes pc : OperationNext Reply)) ∧
      after.operations id = pc

section Performed
variable {action : HostAction Reply} (performed : host.perform codec action = some after)
include performed

theorem perform_moved : HostMoved codec host after action := by
  have slot : ∀ {ready : AdmissionHost Reply} {move}, ready.within move = some after →
      ready.system.threads = host.system.threads → ready.operations = host.operations →
      ready.store = stored codec host.store (transactionOf host action) →
      (∀ id thread, move = .call id thread → action = .call id thread) →
      HostMoved codec host after action := by
    intro ready move made threads operations store own
    obtain ⟨sameStore, sameOperations, moved⟩ := within_store made
    exact ⟨sameStore.trans store, .inr ⟨ready.system, move, threads, moved, own⟩,
      fun id => .inl (congrFun (sameOperations.trans operations) id)⟩
  cases action with
  | call id thread =>
    refine slot performed rfl rfl rfl ?_
    rintro _ _ ⟨⟩
    rfl
  | advance | fail | request => exact slot performed rfl rfl rfl (by simp)
  | consult id input expected =>
    obtain ⟨_, _, _, _, _, _, same, moved⟩ := consult_ok performed
    exact slot moved rfl rfl same (by simp)
  | operate id step =>
    obtain ⟨request, tokenId, entry, store, token, next, there, _, stepped, moved, _⟩ :=
      operate_ok performed
    have isStored : store = stored codec host.store (transactionOf host (.operate id step)) := by
      rcases step_store stepped with ⟨rfl, other⟩ | ⟨admission, isPlace, rfl, rfl⟩
      · cases step <;> first | rfl | exact absurd rfl other
      · simp only [transactionOf, isPlace, stored]
    cases next with
    | goes pc =>
      cases moved
      refine ⟨isStored, .inl rfl, fun other => ?_⟩
      by_cases same : other = id
      · subst same
        exact .inr ⟨request, tokenId, entry, step, token, pc, there, stepped, if_pos rfl⟩
      · exact .inl (if_neg same)
    | returns result => exact slot moved rfl rfl isStored (by simp)
  | panic id =>
    change host.panic id = some after at performed
    unfold AdmissionHost.panic at performed
    split at performed
    · exact slot performed rfl rfl rfl (by simp)
    · exact slot performed rfl rfl rfl (by simp)
    · cases performed
  | answer id answer =>
    simp only [AdmissionHost.perform, Option.ite_none_right_eq_some] at performed
    exact slot performed.2 rfl rfl rfl (by simp)
  | serve call =>
    cases performed
    exact ⟨rfl, .inl rfl, fun _ => .inl rfl⟩

/-- A call of the Host is not forgotten. -/
theorem perform_kept (there : host.system.threads id = some (.execute request token pc)) :
    ∃ pc', after.system.threads id = some (.execute request token pc') := by
  rcases (perform_moved performed).threads with same | ⟨system, slot, same, moved, _⟩
  · exact ⟨pc, same ▸ there⟩
  · rw [← same] at there
    generalize after.system = final at moved
    cases performed_of_perform moved with
    | @called other thread unused _ =>
      have different : id ≠ other := by
        rintro rfl
        rw [unused] at there
        cases there
      exact ⟨pc, by simp [System.moved, different, there]⟩
    | @moved _ other thread _ _ isThread stepped =>
      by_cases own : id = other
      · subst own
        cases there.symm.trans isThread
        cases stepped with
        | executeAdvance | executeResume => exact ⟨_, by simp only [System.moved, if_true]; rfl⟩
      · exact ⟨pc, by simp [System.moved, own, there]⟩
    | token => exact ⟨pc, there⟩

/-- A call of the Host was there before, or has just been made. -/
theorem perform_before (there : after.system.threads id = some (.execute request token pc)) :
    (∃ pc', host.system.threads id = some (.execute request token pc') ∧
      (past pc' = true → pc = pc')) ∨ action = .call id (.execute request token pc) := by
  rcases (perform_moved performed).threads with same | ⟨system, slot, same, moved, own⟩
  · exact .inl ⟨pc, same ▸ there, fun _ => rfl⟩
  · rcases (thread_before moved).2 request token pc there with ⟨pc', before, still⟩ | ⟨_, made⟩
    · exact .inl ⟨pc', same ▸ before, still⟩
    · exact .inr (own _ _ made)

end Performed

theorem stored_reachable (reachable : ReachableStore codec db) (transaction : Option StoreCall) :
    ReachableStore codec (stored codec db transaction) := by
  cases transaction with
  | none => exact reachable
  | some call => exact later_reachable reachable (.single ⟨call, trivial, rfl⟩) (fun _ _ => id)

/-! ## Admissions -/

/-- An operation that is about to admit something admits the request of its call. -/
structure Prepared (host : AdmissionHost Reply) : Prop where
  unused : ∀ id, host.system.threads id = none → host.operations id = .replaying
  presents : ∀ id request token pc admission,
    host.system.threads id = some (.execute request token pc) →
    host.operations id = .gating admission ∨ host.operations id = .committing admission →
    admission.admissionInput.any request.presents = true

theorem new_prepared (store : Database) : Prepared (.new store : AdmissionHost Reply) where
  unused := fun _ _ => rfl
  presents := by
    intro id request token pc admission there
    cases there

/-- A place that is about to admit something was one before, or was given it. -/
private theorem step_presents {after} (stepped : AdmissionPc.step codec request db token pc step =
      some (after, token', (.goes next : OperationNext Reply)))
    (about : next = .gating admission ∨ next = .committing admission) :
    pc = .gating admission ∨ admission.admissionInput.any request.presents = true := by
  unfold AdmissionPc.step at stepped
  split at stepped
  case h_5 =>
    split at stepped
    · rename_i own
      cases stepped
      rcases about with made | made <;> cases made
      exact .inr own
    · cases stepped
  case h_6 =>
    split at stepped
    · cases stepped
    · cases stepped
      rcases about with made | made <;> cases made
      exact .inl rfl
    · cases stepped
      rcases about with made | made <;> cases made
  all_goals repeat' split at stepped
  all_goals first
    | (cases stepped; done)
    | (cases stepped; rcases about with made | made <;> cases made)
    | (obtain ⟨_, returned, made⟩ := Option.map_eq_some_iff.mp stepped
       cases made
       first
         | exact absurd returned (by simp [OperationNext.admitted])
         | (rcases about with made | made <;> cases made))

/-- An operation whose call has not been made is at its start. -/
theorem perform_unused (performed : host.perform codec action = some after)
    (unused : ∀ id, host.system.threads id = none → host.operations id = .replaying)
    (id : ThreadId) (gone : after.system.threads id = none) : after.operations id = .replaying := by
  have before : host.system.threads id = none := by
    rcases (perform_moved performed).threads with same | ⟨system, slot, same, moved, _⟩
    · rw [← same]
      exact gone
    · rw [← same]
      exact (thread_before moved).1 gone
  rcases (perform_moved performed).operations id with same | ⟨_, _, _, _, _, _, there, _⟩
  · rw [same]
    exact unused id before
  · rw [before] at there
    cases there

theorem perform_prepared (prepared : Prepared host)
    (performed : host.perform codec action = some after) : Prepared after where
  unused := perform_unused performed prepared.unused
  presents := by
    intro id request token pc admission there about
    rcases (perform_moved performed).operations id with
      same | ⟨_, _, _, _, _, next, leading, stepped, made⟩
    · rw [same] at about
      rcases perform_before performed there with ⟨pc', before, _⟩ | made
      · exact prepared.presents id request token pc' admission before about
      · subst made
        obtain ⟨unused, _⟩ := within_call performed
        rw [prepared.unused id unused] at about
        rcases about with place | place <;> cases place
    · rw [made] at about
      obtain ⟨_, still⟩ := perform_kept performed leading
      cases still.symm.trans there
      rcases step_presents stepped about with before | presents
      · exact prepared.presents id _ _ _ admission leading (.inl before)
      · exact presents

/-- A record is made by a transaction of others, or by the operation of a call for
the request. -/
theorem perform_creates (prepared : Prepared host) (reachable : ReachableStore codec host.store)
    (performed : host.perform codec action = some after)
    (before : host.store.idempotencyRecords.lookup key = none)
    (made : after.store.idempotencyRecords.lookup key ≠ none) :
    (∃ call, action = .serve call) ∨ ∃ id request token entry,
      host.system.threads id = some (.execute request token (.leading entry)) ∧
      requestKey request = key := by
  rw [(perform_moved performed).store] at made
  obtain ⟨held, represents⟩ := reachable_represents reachable
  cases uses : transactionOf host action with
  | none =>
    rw [uses] at made
    exact absurd before made
  | some call =>
    rw [uses] at made
    obtain ⟨input, requested, own⟩ := serve_opens represents before made
    cases action with
    | serve call => exact .inl ⟨call, rfl⟩
    | consult id input expected =>
      -- a cancellation makes no record
      simp only [transactionOf] at uses
      split at uses
      · obtain ⟨durable, _, rfl⟩ := Option.map_eq_some_iff.mp uses
        split at requested <;> exact requested.elim
      · cases uses
    | operate id step =>
      obtain ⟨request, tokenId, entry, _, _, _, there, _, _, _, _⟩ := operate_ok performed
      refine .inr ⟨id, request, tokenId, entry, there, ?_⟩
      cases step with
      | commit =>
        simp only [transactionOf] at uses
        split at uses
        · rename_i isPlace
          cases uses
          have presents := prepared.presents id request tokenId _ call there (.inr isPlace)
          rw [← own]
          cases call with
          | beginSession session made context now
          | beginFollowUp sessionId expected turnId policy time requiresThread context now =>
            rw [show input = context.idempotency from requested]
            exact (key_of_presents presents).symm
          | commitLifecycle | recordUpstreamRef | beginStop | confirmStop
          | markRestartRecoveryPending | recordAdmissionCancellation
          | reconcileAdmissionCancellation | pruneExpiredSessionMetadata | appendSafeLog =>
            cases presents
        · cases uses
      | replay | finish | ready | enter | acknowledge | dispatch | fail => cases uses
    | call | advance | fail | panic | answer | request => cases uses

/-! ## What is said of a request -/

/-- What may be said of a request, given what the store holds. -/
structure Account (Reply : Type) (request : OperationRequest) where
  good : Database → SharedResult Reply → Prop
  goodCancel : Database → Except SatelleError AdmissionCancellationOutcome → Prop
  vocabulary : ∀ db, Vocabulary (good db) (goodCancel db)
  named : ∀ {db whole turnId}, Named db request whole turnId →
    good db (.ok (.admission whole.toPublic turnId))

variable {request : OperationRequest} {account : Account Reply request}

/-- What was said stays true. -/
structure Account.Carries (account : Account Reply request) (db after : Database) : Prop where
  good : ∀ result, account.good db result → account.good after result
  goodCancel : ∀ result, account.goodCancel db result → account.goodCancel after result
  recorded : ∀ sessionId turnId, Recorded db request sessionId turnId →
    Recorded after request sessionId turnId

/-- A closure tells what may be said. -/
theorem Answered.tells {after} {closure : Closure} (answered : Answered codec request db closure answer after)
    (reachable : ReachableStore codec db) (isAdmission : request.isAdmission = true)
    (buries : answer = .ok .cancelled → account.goodCancel after (.ok .cancelled)) :
    Tells (account.good after) (account.goodCancel after) closure (.durable answer) := by
  cases answer with
  | error => trivial
  | ok outcome =>
    cases outcome with
    | recoveryPending => trivial
    | cancelled => exact buries rfl
    | missing =>
      cases answered with
      | resolved => rfl
      | persisted presents asked told =>
        exact absurd rfl (persisted_named reachable isAdmission presents asked told).1
    | admitted outcome =>
      cases answered with
      | resolved presents told =>
        obtain ⟨whole, turnId, rfl, named⟩ :=
          resolveClosure_named reachable isAdmission presents told
        exact account.named named
      | persisted presents asked told =>
        obtain ⟨whole, turnId, rfl, named⟩ :=
          (persisted_named reachable isAdmission presents asked told).2 outcome rfl
        exact account.named named

/-- The operation of a request at a place. -/
def Operating (db : Database) (request : OperationRequest) : AdmissionPc → Prop
  | .gating admission | .committing admission =>
    admission.admissionInput.any request.presents = true
  | .admitting _ outcome | .dispatching outcome =>
    ∃ turnId, Named db request outcome.session turnId
  | .replaying | .preparing | .failing _ => True

theorem Account.Carries.operating {after} (carries : account.Carries db after)
    (operating : Operating db request pc) : Operating after request pc := by
  cases pc with
  | replaying | preparing | failing => trivial
  | gating | committing => exact operating
  | admitting | dispatching =>
    obtain ⟨turnId, named⟩ := operating
    exact ⟨turnId, named.last, carries.recorded _ _ named.recorded⟩

/-- What an operation does next is true of the store. -/
def NextBacked (account : Account Reply request) (db : Database) : OperationNext Reply → Prop
  | .goes pc => Operating db request pc
  | .returns result => account.good db result

private theorem admitted_backed (named : Named db request whole turnId)
    (returned : OperationNext.admitted whole.toPublic = some next) :
    NextBacked account db next := by
  obtain ⟨turn, isLast, rfl⟩ := Option.map_eq_some_iff.mp named.last
  simp only [OperationNext.admitted, Core.Session.toPublic, List.getLast?_map, isLast] at returned
  cases returned
  exact account.named named

private theorem step_backed {after} (reachable : ReachableStore codec db)
    (isAdmission : request.isAdmission = true) (operating : Operating db request pc)
    (stepped : AdmissionPc.step codec request db token pc step = some (after, token', next)) :
    NextBacked account after next := by
  have replayed : ∀ {input expected session} {next : OperationNext Reply},
      request.presents input = true →
      replayClosure codec input expected db = .ok (some session) →
      OperationNext.admitted session = some next → NextBacked account db next := by
    intro input expected session next presents ran returned
    obtain ⟨whole, turnId, rfl, named⟩ := replayClosure_named reachable isAdmission presents ran
    exact admitted_backed named returned
  have failed : ∀ {db : Database} {error}, NextBacked account db (.returns (.error error)) :=
    fun {db _} => (account.vocabulary db).error _
  unfold AdmissionPc.step at stepped
  split at stepped
  · split at stepped
    · rename_i presents
      split at stepped
      · cases stepped
        exact failed
      · rename_i ran
        obtain ⟨_, returned, made⟩ := Option.map_eq_some_iff.mp stepped
        cases made
        exact replayed presents ran returned
      · cases stepped
        trivial
    · cases stepped
  · cases stepped
    exact failed
  · cases stepped
    trivial
  · cases stepped
    trivial
  · split at stepped
    · rename_i own
      cases stepped
      exact own
    · cases stepped
  · split at stepped
    · cases stepped
    · cases stepped
      exact operating
    · cases stepped
      trivial
  · split at stepped
    · rename_i ran
      cases stepped
      exact begin_named reachable isAdmission operating ran
    · cases stepped
      trivial
    · cases stepped
  · cases stepped
    trivial
  · obtain ⟨_, _, made⟩ := Option.map_eq_some_iff.mp stepped
    cases made
    exact operating
  · obtain ⟨turnId, named⟩ := operating
    obtain ⟨_, returned, made⟩ := Option.map_eq_some_iff.mp stepped
    cases made
    exact admitted_backed named returned
  · cases stepped
    trivial
  · split at stepped
    · rename_i presents
      split at stepped
      · rename_i ran
        obtain ⟨_, returned, made⟩ := Option.map_eq_some_iff.mp stepped
        cases made
        exact replayed presents ran returned
      · cases stepped
        exact failed
      · cases stepped
        exact failed
    · cases stepped
  · cases stepped
    exact failed
  · cases stepped

/-! ## Steps of the Host -/

/-- What holds of a request all the time. -/
structure Tracked (codec : TimeCodec) (account : Account Reply request)
    (host : AdmissionHost Reply) : Prop where
  store : ReachableStore codec host.store
  excluded : Excluded host.system
  truthful : Truthful (account.good host.store) (account.goodCancel host.store) request host.system
  unused : ∀ id, host.system.threads id = none → host.operations id = .replaying
  operations : ∀ id token pc, host.system.threads id = some (.execute request token pc) →
    Operating host.store request (host.operations id)

/-- What the slot says of the request is true of the store. -/
structure Spoken (account : Account Reply request) (db : Database) (system : System Reply) :
    Prop where
  excluded : Excluded system
  truthful : Truthful (account.good db) (account.goodCancel db) request system

section
variable (spoken : Spoken account db host.system)
include spoken

/-- A step of the slot alone. -/
theorem Spoken.within (performed : host.within action = some after)
    (told : ∀ id answer thread closure, action = .resume id answer →
      host.system.threads id = some thread → thread.closure = some (request, closure) →
      Tells (account.good db) (account.goodCancel db) closure answer) :
    Spoken account db after.system := by
  obtain ⟨_, _, moved⟩ := within_store performed
  exact ⟨(performed_of_perform moved).excluded spoken.excluded,
    performed_truthful (account.vocabulary db) spoken.excluded spoken.truthful told moved⟩

/-- A closure has returned. -/
theorem Spoken.resumed (performed : host.within (.resume id answer) = some after)
    (told : ∀ thread closure, host.system.threads id = some thread →
      thread.closure = some (request, closure) →
      Tells (account.good db) (account.goodCancel db) closure answer) :
    Spoken account db after.system := by
  refine spoken.within performed ?_
  rintro _ _ thread closure ⟨⟩
  exact told thread closure

/-- Tokens do not matter. -/
theorem Spoken.token (tokenId : TokenId) (token : AdmissionCancellation) :
    Spoken account db { host.system with
      capacity := host.system.capacity.setToken tokenId token } :=
  ⟨token_excluded spoken.excluded, spoken.truthful.threads, spoken.truthful.entries⟩

end

section
variable (tracked : Tracked codec account host) (isAdmission : request.isAdmission = true)
  {action : HostAction Reply} (performed : host.perform codec action = some after)
  (carries : account.Carries host.store after.store)
include tracked isAdmission performed carries

private theorem perform_spoken
    (buries : ∀ closure, Answered codec request host.store closure
      (.ok .cancelled : Except SatelleError (DurableAdmissionOutcome Reply)) after.store →
      account.goodCancel after.store (.ok .cancelled)) :
    Spoken account after.store after.system := by
  have spoken : Spoken account after.store host.system :=
    ⟨tracked.excluded, tracked.truthful.mono carries.good carries.goodCancel⟩
  cases action with
  | call | advance | request =>
    refine spoken.within performed ?_
    rintro _ _ _ _ ⟨⟩
  | consult id input expected =>
    obtain ⟨own, closure, answer, calling, _, answered, _, moved⟩ := consult_ok performed
    refine Spoken.resumed ?_ moved ?_
    · exact spoken
    intro thread asked there isClosure
    change host.system.threads id = some thread at there
    rw [there, Option.bind_some, isClosure] at calling
    cases calling
    refine answered.tells tracked.store isAdmission ?_
    rintro rfl
    exact buries closure answered
  | fail id error => exact spoken.resumed performed fun _ _ _ _ => trivial
  | operate id step =>
    obtain ⟨own, tokenId, entry, store, token, next, there, _, stepped, moved, same⟩ :=
      operate_ok performed
    have ready := spoken.token tokenId token
    cases next with
    | goes pc =>
      cases moved
      exact ready
    | returns result =>
      refine Spoken.resumed ?_ moved ?_
      · exact ready
      intro thread closure isThread calling
      cases there.symm.trans isThread
      cases calling
      rw [same]
      exact step_backed tracked.store isAdmission (tracked.operations id _ _ there) stepped
  | panic id =>
    change host.panic id = some after at performed
    unfold AdmissionHost.panic at performed
    split at performed
    · refine Spoken.resumed ?_ performed fun _ _ _ _ => trivial
      exact spoken.token _ _
    · exact spoken.resumed performed fun _ _ _ _ => trivial
    · cases performed
  | answer id answer =>
    simp only [AdmissionHost.perform, Option.ite_none_right_eq_some] at performed
    obtain ⟨foreign, performed⟩ := performed
    refine spoken.resumed performed ?_
    intro thread closure there calling
    -- the call is not about an admission
    unfold AdmissionHost.admission at foreign
    rw [there] at foreign
    cases thread with
    | execute own token pc | cancel own pc =>
      obtain ⟨_, _, made⟩ := Option.map_eq_some_iff.mp calling
      cases made
      simp [isAdmission] at foreign
    | exclusive => cases calling
  | serve call =>
    cases performed
    exact spoken

/-- Every step of the Host that keeps what was said keeps track of the request. -/
theorem perform_tracked
    (buries : ∀ closure, Answered codec request host.store closure
      (.ok .cancelled : Except SatelleError (DurableAdmissionOutcome Reply)) after.store →
      account.goodCancel after.store (.ok .cancelled)) : Tracked codec account after := by
  obtain ⟨excluded, truthful⟩ := perform_spoken tracked isAdmission performed carries buries
  have moved := perform_moved performed
  refine ⟨?_, excluded, truthful, perform_unused performed tracked.unused, ?_⟩
  · rw [moved.store]
    exact stored_reachable tracked.store _
  · intro id token pc there
    rcases moved.operations id with same | ⟨_, _, _, _, _, next, leading, stepped, made⟩
    · rw [same]
      rcases perform_before performed there with ⟨pc', before, _⟩ | rfl
      · exact carries.operating (tracked.operations id token pc' before)
      · rw [tracked.unused id (within_call performed).1]
        trivial
    · obtain ⟨_, still⟩ := perform_kept performed leading
      cases still.symm.trans there
      have backed : NextBacked account after.store (.goes next) :=
        step_backed tracked.store isAdmission (tracked.operations id _ _ leading) stepped
      exact made ▸ backed

end

/-- Nothing has been said when the Host starts. -/
theorem new_tracked (reachable : ReachableStore codec store) :
    Tracked codec account (AdmissionHost.new store) where
  store := reachable
  excluded := new_excluded
  truthful := by
    refine ⟨?_, ?_⟩
    · intro id thread there
      cases there
    · intro entry inFlight result found
      cases found
  unused := fun _ _ => rfl
  operations := by
    intro id token pc there
    cases there

end Satelle.AdmissionFlow
