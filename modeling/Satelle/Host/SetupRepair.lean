import Satelle.Host.SetupLedger

/-! The repair plan (`plan_setup_repair` and `latest_setup_actions` of
`host/storage/setup_ledger.rs`). -/
namespace Satelle.Host
open Satelle.Core

inductive SetupRepairPostcondition where
  | satisfied | unsatisfied | unknown
  deriving DecidableEq, Repr

structure SetupRepairProbe where
  action : SetupActionPlan
  postcondition : SetupRepairPostcondition

inductive SetupRepairDecision where
  | noActionRequired | retryAutomatically | operatorActionRequired | probeRequired
  deriving DecidableEq, Repr

structure SetupRepairAction where
  actionId : String
  label : String
  decision : SetupRepairDecision
  retrySafe : Bool
  previousRunId : Option String
  previousStatus : Option SetupActionStatus
  deriving DecidableEq

structure SetupRepairPlan where
  actions : List SetupRepairAction
  selectedOperationKind : Option SetupOperationKind
  selectedRunStatus : Option SetupRunStatus
  hostUpdateRecoveryIdentity : Option HostUpdateRecoveryIdentity
  deriving DecidableEq

structure PreviousSetupAction where
  runId : String
  status : SetupActionStatus
  retrySafe : Bool
  rowId : Nat
  deriving DecidableEq, Repr

/-- The hash map of an action id to what is known of it. -/
abbrev SetupActionHistory := String → Option PreviousSetupAction

/-- A row of the join that `latest_setup_actions` selects. -/
structure SetupHistoryRow where
  rowId : Nat
  runId : String
  actionId : String
  status : SetupActionStatus
  retrySafe : Bool
  deriving DecidableEq, Repr

/-- A run of this version in the scope. -/
def SetupRunRow.isCompatible (version : String) (desktopBinding : Option DesktopBindingRef)
    (run : SetupRunRow) : Bool :=
  run.satelleVersion = version && run.desktopBindingRef = desktopBinding.map (·.text)

/-- The join of the actions and the compatible runs. The row id of a run is its
place in the table: only their order is used, and a new row has the largest one. -/
def setupHistoryRows (db : Database) (version : String)
    (desktopBinding : Option DesktopBindingRef) : List SetupHistoryRow :=
  db.setupActions.rows.filterMap fun action => do
    let run ← db.setupRuns.lookup action.runId
    if run.isCompatible version desktopBinding then
      some {
        rowId := db.setupRuns.rows.findIdx (·.runId = run.runId)
        runId := run.runId
        actionId := action.actionId
        status := action.status
        retrySafe := action.retrySafe }
    else none

/-- One row of the loop: every row contributes its safety marker, the latest one the
context. -/
def recordSetupAction (latest : SetupActionHistory) (row : SetupHistoryRow) :
    Except StorageError SetupActionHistory := do
  let runId ← validatedStoredPrivateReference row.runId
  let actionId ← validatedStoredPrivateReference row.actionId
  match latest actionId.text with
  | some action =>
    let retrySafe := action.retrySafe && row.retrySafe
    if action.rowId < row.rowId then
      return Function.update latest actionId.text
        (some ⟨runId.text, row.status, retrySafe, row.rowId⟩)
    else return Function.update latest actionId.text (some { action with retrySafe := retrySafe })
  | none =>
    return Function.update latest actionId.text
      (some ⟨runId.text, row.status, row.retrySafe, row.rowId⟩)

/-- The loop over the rows, in the order they are returned. -/
def latestSetupActions (rows : List SetupHistoryRow) : Except StorageError SetupActionHistory :=
  rows.foldlM recordSetupAction (fun _ => none)

/-- What is known of the actions of a selected run: its own record, with the safety
of all the history. Of two records of one action the last counts. -/
def selectedHistory (run : SetupRunRecord) (accumulated : SetupActionHistory) :
    SetupActionHistory := fun actionId =>
  (run.actions.reverse.find? (·.actionId = actionId)).map fun action => {
    runId := run.runId
    status := action.status
    retrySafe := action.retrySafe && (accumulated actionId).all (·.retrySafe)
    rowId := 0 }

def SetupRepairProbe.plan (history : SetupActionHistory) (probe : SetupRepairProbe) :
    SetupRepairAction :=
  let previous := history probe.action.actionId.text
  let retrySafe := probe.action.retrySafe && previous.all (·.retrySafe)
  { actionId := probe.action.actionId.text
    label := probe.action.label.text
    decision :=
      match probe.postcondition with
      | .satisfied => .noActionRequired
      | .unknown => .probeRequired
      | .unsatisfied => if retrySafe then .retryAutomatically else .operatorActionRequired
    retrySafe := retrySafe
    previousRunId := previous.map (·.runId)
    previousStatus := previous.map (·.status) }

/-- `rows` are those of the join in the order SQLite returns them, which the
statement leaves open. -/
def planSetupRepair (db : Database) (version : String)
    (desktopBinding : Option DesktopBindingRef) (rows : List SetupHistoryRow)
    (selectedRun : Option SetupRunRecord) (probes : List SetupRepairProbe) :
    Except StorageError SetupRepairPlan := do
  ensure ((probes.map (·.action.actionId.text)).Nodup) .invalidInput
  ensure ((activeSetupRunIdInScope db version desktopBinding).all fun active =>
    selectedRun.any (·.runId = active)) .stateConflict
  let accumulated ← latestSetupActions rows
  let history :=
    match selectedRun with
    | some run => selectedHistory run accumulated
    | none => accumulated
  return {
    actions := probes.map (·.plan history)
    selectedOperationKind := selectedRun.map (·.operationKind)
    selectedRunStatus := selectedRun.map (·.status)
    hostUpdateRecoveryIdentity := selectedRun.bind (·.hostUpdateRecoveryIdentity) }

end Satelle.Host
