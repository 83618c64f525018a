import Satelle.MaintenanceLeases

/-! The actions of a run are worked through one after the other, and the lease is not
released while the outcome of one of them is unknown. Only an adoption can pass an
action that has failed. -/
namespace Satelle.SetupOrder
open Satelle.Core Host SetupWorks SetupStatements SetupTransactions MaintenanceActs SetupRefinement
open MaintenanceLeases StoreRefinement

/-! ## Unknown outcomes -/

/-- The stores in which `finish_setup_run_in_transaction` is called for an owner. -/
inductive FinishesFrom (codec : TimeCodec) (db : Database) (owner : LeaseOwner) :
    Database → Prop where
  | directly : FinishesFrom codec db owner db
  | handedOff {middle : Database} {time : OffsetDateTime}
      (handed : completeBootstrapHandoff codec db owner.operationId.text time = .ok middle) :
      FinishesFrom codec db owner middle
  | postchecked {middle : Database} {actionId text : String} {now : OffsetDateTime}
      {verified : VerifiedMaintenancePostcheck} {stored : Except StorageError Unit}
      (written : codec.format now = some text)
      (recorded : updateSetupAction db (fun action => action.is owner.operationId.text actionId &&
          action.status = .started && isRunning db owner.operationId.text)
        (·.postchecked verified text)
        (fun action => action.postchecked_key verified text) = .ok middle)
      (evidence : storePostcheckEvidence verified stored = .ok ()) (known : verified ≠ .unknown) :
      FinishesFrom codec db owner middle

theorem finishesFrom_works (owned : Owned db) (comes : FinishesFrom codec db owner middle) :
    Works codec anyRegime db middle := by
  cases comes with
  | directly => exact works_same owned rfl rfl
  | handedOff handed => exact (completeBootstrapHandoff_ok handed).2 anyRegime owned False.elim
  | @postchecked _ actionId text now verified stored written recorded evidence known =>
    obtain ⟨run, x, recorded⟩ := postcheckRecorded_of written recorded
    refine recorded.works owned ?_ False.elim
    cases verified with
    | passed => exact .inl rfl
    | unknown => exact absurd rfl known
    | failed terminal =>
      cases terminal with
      | failed | timedOut => exact .inr rfl
      | outcomeUnknown => cases evidence

theorem ownership_outlasts_unknown_outcomes (codec : TimeCodec) (db : Database)
    (maintained : MaintainedBy codec (fun _ _ => True) db) :
    (∀ a ∈ db.setupActions.rows, ∀ b ∈ db.setupActions.rows, a.runId = b.runId →
      (a.status = .started ∨ a.status = .outcomeUnknown) →
      (b.status = .started ∨ b.status = .outcomeUnknown) → a = b) ∧
    (∀ run ∈ db.setupRuns.rows, run.status = "running" →
      ∀ a ∈ db.setupActions.rows, a.runId = run.runId → a.status ≠ .outcomeUnknown) ∧
    (∀ a ∈ db.setupActions.rows,
      (∀ lease ∈ db.maintenanceLeases.rows, lease.operationId ≠ a.runId) →
        a.status = .completed ∨ a.status = .failed ∨ a.status = .skipped) ∧
    (∀ owner middle time status after, FinishesFrom codec db owner middle →
      finishSetupRunInTransaction codec middle owner.operationId.text time = .ok (status, after) →
        status ≠ .outcomeUnknown) := by
  have sound := maintained_sound maintained
  refine ⟨?_, ?_, ?_, ?_⟩
  · intro a first b second same openA openB
    obtain ⟨run, present, names⟩ := sound.owned a first
    have isOpen : ∀ {status : SetupActionStatus}, status = .started ∨ status = .outcomeUnknown →
        isOpen status = true := by
      rintro status (rfl | rfl) <;> rfl
    exact (sound.inOrder run present).open_unique (mem_workOf.mpr ⟨first, names.symm⟩)
      (mem_workOf.mpr ⟨second, same.symm.trans names.symm⟩) (isOpen openA) (isOpen openB)
  · intro run present running a member own
    exact (sound.inOrder run present).running running a (mem_workOf.mpr ⟨member, own⟩)
  · intro a member unleased
    obtain ⟨run, present, names⟩ := sound.owned a member
    have ended : run.isTerminal = true := by
      by_contra unended
      obtain ⟨lease, leased, own⟩ := sound.governed.held run present (by simpa using unended)
      exact unleased lease leased (own.trans names)
    have settled := (sound.inOrder run present).past ended a (mem_workOf.mpr ⟨member, names.symm⟩)
    cases status : a.status <;> simp_all [isSettled]
  · intro owner middle time status after comes finished unknown
    have works := finishesFrom_works sound.owned comes
    have known := finish_terminal (works_keep works (inOrder_kept codec _) sound.inOrder) finished
    rw [unknown] at known
    simp at known

/-- The sample setup is worked through to its end. -/
def finishSample : List MaintenanceCall := [
  beginSample,
  .startSetupAction (sampleOwner 0) "install-test" (seconds 0),
  .completeSetupAction (sampleOwner 0) "install-test" (seconds 1),
  .skipSetupAction (sampleOwner 0) "verify-test" .notRequired (seconds 2),
  .finishSetupRun (sampleOwner 0) (seconds 3)]

theorem ownership_outlasts_unknown_outcomes_finished :
    (maintain sampleCodec emptyStore finishSample).maintenanceLeases.rows = [] ∧
    (maintain sampleCodec emptyStore finishSample).setupActions.rows.length = 2 ∧
    ∀ a ∈ (maintain sampleCodec emptyStore finishSample).setupActions.rows,
      a.status = .completed ∨ a.status = .failed ∨ a.status = .skipped := by
  have released : (maintain sampleCodec emptyStore finishSample).maintenanceLeases.rows = [] := by
    decide +kernel
  refine ⟨released, by decide +kernel, fun a member => ?_⟩
  have maintained : MaintainedBy sampleCodec (fun _ _ => True)
      (maintain sampleCodec emptyStore finishSample) :=
    maintain_maintained (unmaintained_maintained emptyStore_unmaintained)
      ⟨trivial, trivial, trivial, trivial, trivial, trivial⟩
  refine (ownership_outlasts_unknown_outcomes sampleCodec _ maintained).2.2.1 a member ?_
  rw [released]
  simp

/-! ## Failures -/

/-- Started at some time, and not ended with a failure. -/
def hasBegun : SetupActionStatus → Bool
  | .started | .completed | .outcomeUnknown => true
  | .planned | .failed | .skipped => false

/-- What an action may be behind. -/
def hasPassed : SetupActionStatus → Bool
  | .completed | .skipped => true
  | .planned | .started | .failed | .outcomeUnknown => false

/-- Every action that has begun is behind actions that were completed or skipped. -/
structure InSequence (work : Work) : Prop where
  inOrder : InOrder work
  passed : Along (fun a b => hasBegun b.status = true → hasPassed a.status = true) work.actions

/-- One action of a run is replaced behind which all are planned. -/
theorem InSequence.replace_passed (sequence : InSequence ⟨run, actions⟩) (member : x ∈ actions)
    (order : y.actionOrder = x.actionOrder) (unsettled : isSettled x.status = false)
    (ready : hasBegun y.status = true → ∀ a ∈ actions, a.actionOrder < x.actionOrder →
      hasPassed a.status = true) :
    Along (fun a b => hasBegun b.status = true → hasPassed a.status = true)
      (replace x y actions) := by
  refine sequence.passed.replace order (fun a there less begun => ready begun a there less) ?_
  intro b there less begun
  rw [sequence.inOrder.later_planned member unsettled there less] at begun
  cases begun

/-- Actions that have been settled stay, and none begins. -/
theorem InSequence.map_passed
    (sequence : InSequence ⟨run, actions⟩)
    (order : ∀ a ∈ actions, (change a).actionOrder = a.actionOrder)
    (settled : ∀ a ∈ actions, isSettled a.status = true → change a = a)
    (begins : ∀ a ∈ actions, hasBegun (change a).status = true → hasBegun a.status = true) :
    Along (fun a b => hasBegun b.status = true → hasPassed a.status = true)
      (actions.map change) := by
  refine sequence.passed.map order ?_
  intro a first b second less passed begun
  have before := passed (begins b second begun)
  rw [settled a first (by cases status : a.status <;> simp_all [hasPassed, isSettled])]
  exact before

theorem step_inSequence (careful : regime.careful) (sequence : InSequence work)
    (step : WorkStep codec regime work after) : InSequence after := by
  refine ⟨step_inOrder sequence.inOrder step, ?_⟩
  cases step with
  | @acted x time text y run actions member running written acts =>
    cases acts with
    | starts planned ready =>
      refine sequence.replace_passed member rfl (by rw [planned]; rfl) ?_
      intro _ a there less
      rcases ready a there less with status | status <;> rw [status] <;> rfl
    | settles started ended =>
      refine sequence.replace_passed member ended.same.order (by rw [started]; rfl) ?_
      intro _ a there less
      exact sequence.passed a there x member less (by rw [started]; rfl)
    | skips planned =>
      refine sequence.replace_passed member rfl (by rw [planned]; rfl) ?_
      intro begun
      cases begun
  | finished => exact sequence.passed
  | lost running interrupts =>
    refine sequence.map_passed (fun a there => (interrupts a there).survives.order) ?_ ?_
    · intro a there settled
      cases interrupts a there with
      | ends started =>
        rw [started] at settled
        cases settled
      | stays _ same => exact same
    · intro a there begun
      cases interrupts a there with
      | ends started => exact started ▸ rfl
      | stays _ same => rwa [same] at begun
  | @resumed x time text run actions member unknown resumable least spared written timely =>
    by_cases completed : x.status = .completed
    · rw [if_pos completed]
      exact sequence.passed
    · rw [if_neg completed]
      obtain ⟨status, before⟩ :=
        (sequence.inOrder.resumable unknown member least).2 completed resumable
      refine sequence.replace_passed member rfl
        (by rcases status with status | status <;> rw [status] <;> rfl) ?_
      intro _ a there less
      have settled := before a there less
      have intact := spared careful a there
      cases isStatus : a.status <;> simp_all [isSettled, hasPassed]
  | reconciled unknown reconciles =>
    refine sequence.map_passed (fun a there => (reconciles a there).survives.order) ?_ ?_
    · intro a there settled
      cases reconciles a there with
      | skips planned =>
        rw [planned] at settled
        cases settled
      | ends unknown =>
        rw [unknown] at settled
        cases settled
      | stays _ same => exact same
    · intro a there begun
      cases reconciles a there with
      | skips _ made =>
        rw [made] at begun
        cases begun
      | ends unknown => exact unknown ▸ rfl
      | stays _ same => rwa [same] at begun

theorem actions_run_in_order (codec : TimeCodec) (db : Database)
    (maintained : MaintainedBy codec Careful db) :
    ∀ a ∈ db.setupActions.rows, ∀ b ∈ db.setupActions.rows, a.runId = b.runId →
      a.actionOrder < b.actionOrder → (b.status = .started ∨ b.status = .completed) →
        a.status = .completed ∨ a.status = .skipped := by
  have regular : ∀ {db call}, Careful db call → Regular codec ⟨False, True⟩ db call :=
    fun careful => ⟨False.elim, fun _ => careful⟩
  have kept : Kept codec ⟨False, True⟩ InSequence := by
    refine ⟨fun planned => ⟨planned_inOrder planned, ?_⟩, step_inSequence trivial⟩
    intro a _ b member _ begun
    rw [(planned.planned b member).1] at begun
    cases begun
  obtain ⟨_, owned, sequence⟩ := maintained_works kept regular maintained
  intro a first b second same less begun
  obtain ⟨run, present, names⟩ := owned a first
  have hasBegun : hasBegun b.status = true := by
    rcases begun with status | status <;> rw [status] <;> rfl
  have passed := (sequence run present).passed a (mem_workOf.mpr ⟨first, names.symm⟩) b
    (mem_workOf.mpr ⟨second, same.symm.trans names.symm⟩) less hasBegun
  cases status : a.status <;> simp_all [hasPassed]

/-- The first action is lost with the daemon, adopted, and completed; the second one is
started. -/
def adoptSample : List MaintenanceCall := [
  beginSample,
  .startSetupAction (sampleOwner 0) "install-test" (seconds 0),
  .initializeRestartRecovery (seconds 1) (fun _ => seconds 1),
  .adoptRecoveryMaintenance "operation-test" (sampleOwner 2),
  .completeSetupAction (sampleOwner 2) "install-test" (seconds 2),
  .startSetupAction (sampleOwner 2) "verify-test" (seconds 3)]

theorem actions_run_in_order_adopted :
    (maintain sampleCodec emptyStore adoptSample).setupActions.rows.map (·.status) =
      [.completed, .started] ∧
    ∀ a ∈ (maintain sampleCodec emptyStore adoptSample).setupActions.rows,
      ∀ b ∈ (maintain sampleCodec emptyStore adoptSample).setupActions.rows, a.runId = b.runId →
        a.actionOrder < b.actionOrder → (b.status = .started ∨ b.status = .completed) →
          a.status = .completed ∨ a.status = .skipped := by
  refine ⟨by decide +kernel, ?_⟩
  have maintained : MaintainedBy sampleCodec Careful (maintain sampleCodec emptyStore adoptSample) :=
    maintain_maintained (unmaintained_maintained emptyStore_unmaintained)
      ⟨trivial, trivial, trivial, by unfold Careful; decide +kernel, trivial, trivial, trivial⟩
  exact actions_run_in_order sampleCodec _ maintained

/-- An action fails, the daemon restarts before the run is finished, and the adoption
starts the action behind the one that failed. -/
theorem adoption_starts_behind_failure :
    MaintainedBy sampleCodec (fun _ _ => True) (maintain sampleCodec emptyStore [
      beginSample,
      .startSetupAction (sampleOwner 0) "install-test" (seconds 0),
      .failSetupAction (sampleOwner 0) "install-test" "install-failed" none none (seconds 1),
      .initializeRestartRecovery (seconds 2) (fun _ => seconds 2),
      .adoptRecoveryMaintenance "operation-test" (sampleOwner 3)]) ∧
    (maintain sampleCodec emptyStore [
      beginSample,
      .startSetupAction (sampleOwner 0) "install-test" (seconds 0),
      .failSetupAction (sampleOwner 0) "install-test" "install-failed" none none (seconds 1),
      .initializeRestartRecovery (seconds 2) (fun _ => seconds 2),
      .adoptRecoveryMaintenance "operation-test" (sampleOwner 3)]).setupActions.rows.map
        (fun action => (action.runId, action.actionOrder, action.status)) =
      [("operation-test", 0, .failed), ("operation-test", 1, .started)] := by
  refine ⟨?_, by decide +kernel⟩
  exact maintain_maintained (unmaintained_maintained emptyStore_unmaintained)
    ⟨trivial, trivial, trivial, trivial, trivial, trivial⟩

end Satelle.SetupOrder
