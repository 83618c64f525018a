import Satelle.Host.SetupRepair
import Satelle.SetupOrder

/-! The repair plan. What it says of an action is at least as strict as every record
of the action that it has looked at. -/
namespace Satelle.RepairSafety
open Satelle.Core Lib Host SetupTransactions StoreRefinement
open MaintenanceLeases SetupOrder

/-- An action that the history calls safe is safe by this record of it. -/
def Covers (history : SetupActionHistory) (actionId : String) (retrySafe : Bool) : Prop :=
  ∃ known, history actionId = some known ∧ (known.retrySafe = true → retrySafe = true)

/-- A row is covered once it is recorded, and what was covered stays so. -/
theorem recordSetupAction_covers (ran : recordSetupAction latest row = .ok next) :
    Covers next row.actionId row.retrySafe ∧
    ∀ actionId retrySafe, Covers latest actionId retrySafe → Covers next actionId retrySafe := by
  simp only [recordSetupAction, except_bind_ok] at ran
  obtain ⟨run, _, action, named, ran⟩ := ran
  rw [validatedStoredPrivateReference_ok named] at ran
  have updated : ∃ known, next = Function.update latest row.actionId (some known) ∧
      (known.retrySafe = true → row.retrySafe = true) ∧
      ∀ before, latest row.actionId = some before → known.retrySafe = true →
        before.retrySafe = true := by
    split at ran
    · rename_i before found
      rcases ite_eq_iff.mp ran with ⟨_, made⟩ | ⟨_, made⟩
      all_goals
        cases made
        refine ⟨_, rfl, fun safe => (Bool.and_eq_true_iff.mp safe).2, ?_⟩
        intro old same safe
        rw [found] at same
        cases same
        exact (Bool.and_eq_true_iff.mp safe).1
    · rename_i missing
      cases ran
      refine ⟨_, rfl, id, ?_⟩
      intro old same
      rw [missing] at same
      cases same
  obtain ⟨known, rfl, ofRow, ofBefore⟩ := updated
  refine ⟨⟨known, Function.update_self .., ofRow⟩, ?_⟩
  rintro actionId retrySafe ⟨before, found, covered⟩
  by_cases same : actionId = row.actionId
  · subst same
    exact ⟨known, Function.update_self .., fun safe => covered (ofBefore before found safe)⟩
  · exact ⟨before, by rwa [Function.update_of_ne same], covered⟩

theorem latestSetupActions_covers {rows : List SetupHistoryRow}
    (ran : rows.foldlM recordSetupAction latest = .ok history) :
    (∀ row ∈ rows, Covers history row.actionId row.retrySafe) ∧
    ∀ actionId retrySafe, Covers latest actionId retrySafe → Covers history actionId retrySafe := by
  induction rows generalizing latest with
  | nil =>
    cases ran
    exact ⟨by simp, fun _ _ covered => covered⟩
  | cons row rest ih =>
    rw [List.foldlM_cons] at ran
    obtain ⟨next, recorded, ran⟩ := except_bind_ok.mp ran
    obtain ⟨covered, kept⟩ := recordSetupAction_covers recorded
    obtain ⟨each, stays⟩ := ih ran
    exact ⟨List.forall_mem_cons.mpr ⟨stays _ _ covered, each⟩,
      fun actionId retrySafe before => stays _ _ (kept _ _ before)⟩

/-- An action of a selected run is as safe as the accumulated history says. -/
theorem selectedHistory_covers
    (covered : Covers accumulated actionId retrySafe)
    (selected : actionId ∈ run.actions.map (·.actionId)) :
    Covers (selectedHistory run accumulated) actionId retrySafe := by
  obtain ⟨known, found, safe⟩ := covered
  obtain ⟨action, member, named⟩ := List.mem_map.mp selected
  cases looked : run.actions.reverse.find? (·.actionId = actionId) with
  | none =>
    have missing := List.find?_eq_none.mp looked action (List.mem_reverse.mpr member)
    simp [named] at missing
  | some record =>
    refine ⟨⟨run.runId, record.status, record.retrySafe && known.retrySafe, 0⟩, ?_,
      fun both => safe (Bool.and_eq_true_iff.mp both).2⟩
    simp [selectedHistory, looked, found]

theorem plan_retryAutomatically {probe : SetupRepairProbe}
    (retried : (probe.plan history).decision = .retryAutomatically) :
    probe.postcondition = .unsatisfied ∧ probe.action.retrySafe = true ∧
      (history probe.action.actionId.text).all (·.retrySafe) = true := by
  unfold SetupRepairProbe.plan at retried
  cases postcondition : probe.postcondition with
  | satisfied | unknown => simp [postcondition] at retried
  | unsatisfied =>
    simp only [postcondition] at retried
    rcases ite_eq_iff.mp retried with ⟨safe, _⟩ | ⟨_, other⟩
    · exact ⟨rfl, Bool.and_eq_true_iff.mp safe⟩
    · cases other

/-- The plan for one action that is found undone and is safe to retry. -/
def repairSample (db : Database) (selectedRun : Option SetupRunRecord)
    (actionId : PrivateReference) : Except StorageError SetupRepairPlan :=
  planSetupRepair db "0.1.0" none (setupHistoryRows db "0.1.0" none) selectedRun
    [⟨⟨actionId, ⟨"Repair", by decide⟩, true⟩, .unsatisfied⟩]

def decisions (plan : SetupRepairPlan) : List (String × SetupRepairDecision) :=
  plan.actions.map fun action => (action.actionId, action.decision)

/-- The failed action of one run, which is not safe to retry, and another run that does
not have it. -/
def otherSample : List MaintenanceCall := [
  beginSample,
  .startSetupAction (sampleOwner 0) "install-test" (seconds 0),
  .failSetupAction (sampleOwner 0) "install-test" "install-failed" none none (seconds 1),
  .skipSetupAction (sampleOwner 0) "verify-test" .dependencyFailed (seconds 1),
  .finishSetupRun (sampleOwner 0) (seconds 1),
  .beginSetupRun "0.1.0" {
    runId := ⟨"operation-other", by decide⟩
    operationKind := .setup
    desktopBinding := none
    startedAt := seconds 2
    actions := sampleSetup.actions.drop 1
    nonempty := by decide
    distinct := by decide } { sampleOwner 2 with operationId := ⟨"operation-other", by decide⟩ }]

end Satelle.RepairSafety
