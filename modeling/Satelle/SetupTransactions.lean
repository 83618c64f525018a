import Satelle.SetupStatements
import Satelle.AdmissionChanges

/-! The transactions of the ledger, inverted: what a call that succeeded found in the
store and what it left there, and that it has moved its run by the steps of the run's
machine. A restart moves every run that is not finished. -/
namespace Satelle.SetupTransactions
open Satelle.Core Lib Host SetupWorks SetupStatements Relation
open StoreRows (formatTime_ok parseTime_ok)
open AdmissionChanges (ensureControlLeaseAvailable_ok)

/-! ## Beginning -/

theorem beginSetupRun_ok (ran : beginSetupRun codec db version plan owner = .ok after) :
    ∃ host run lease, hostIdentity db = .ok host ∧ plan.runId.text = owner.operationId.text ∧
      Begun codec plan owner host db after run lease := by
  simp only [beginSetupRun, except_bind_ok, ensure_ok] at ran
  obtain ⟨_, named, host, known, begun⟩ := ran
  obtain ⟨run, lease, begun⟩ := beginSetupRunInTransaction_ok begun
  exact ⟨host, run, lease, known, named, begun⟩

/-- An on-demand handoff has one action. -/
theorem handoff_only (shape : SetupRunPlan.actionIds plan = onDemandHandoff)
    (first : a ∈ plan.rows) (second : b ∈ plan.rows) : a = b := by
  have one : plan.rows.length = 1 := by
    have ids := congrArg List.length shape
    simpa [SetupRunPlan.actionIds, SetupRunPlan.rows, onDemandHandoff] using ids
  obtain ⟨x, only⟩ := List.length_eq_one_iff.mp one
  rw [only, List.mem_singleton] at first second
  rw [first, second]

theorem beginBootstrapMaintenance_ok
    (ran : beginBootstrapMaintenance codec db version plan owner = .ok after) :
    ∃ host middle run lease, hostIdentity db = .ok host ∧
      plan.runId.text = owner.operationId.text ∧
      Begun codec plan owner host db middle run lease ∧
      after = { middle with setupActions := after.setupActions } ∧
      (∀ regime : Regime, Owned db → (regime.punctual → plan.startedAt ≤ owner.acquiredAt) →
        Works codec regime middle after) := by
  simp only [beginBootstrapMaintenance, except_bind_ok, ensure_ok] at ran
  obtain ⟨_, ⟨named, _⟩, host, known, middle, begun, ran⟩ := ran
  obtain ⟨run, lease, begun⟩ := beginSetupRunInTransaction_ok begun
  refine ⟨host, middle, run, lease, known, named, begun, ?_⟩
  rcases ite_eq_iff.mp ran with ⟨shape, ran⟩ | ⟨_, ran⟩
  · simp only [except_bind_ok, formatTime_ok] at ran
    obtain ⟨text, written, ran⟩ := ran
    obtain ⟨x, member, hits, only, rfl⟩ := updateSetupAction_ok ran
    refine ⟨rfl, fun regime owned timely => ?_⟩
    have hit := hits
    simp only [SetupActionRow.is, Bool.and_eq_true, decide_eq_true_eq] at hit
    obtain ⟨⟨own, _⟩, planned⟩ := hit
    have runMember : run ∈ middle.setupRuns.rows := by simp [begun.runs]
    have works : Works codec regime db middle := begun.works owned
    refine works_of_action works.owned runMember member (own.trans begun.runId.symm) hits only rfl
      rfl rfl ?_
    intro there
    rw [begun.workOf owned] at there ⊢
    have first : ∀ a ∈ plan.rows, ¬a.actionOrder < x.actionOrder := by
      intro a present
      rw [handoff_only shape present there]
      exact lt_irrefl _
    refine .single (.acted there begun.running written (.starts planned
      (fun a present less => absurd less (first a present)) fun punctual => ⟨?_, ?_⟩))
    · exact .of_parse (codec.roundTrip _ _ begun.startedAt) (timely punctual)
    · exact fun a present less => absurd less (first a present)
  · cases ran
    refine ⟨rfl, fun regime owned _ => ?_⟩
    have works : Works codec regime db after := begun.works owned
    exact works_same works.owned rfl rfl

/-! ## Ending -/

theorem completeBootstrapHandoff_ok
    (ran : completeBootstrapHandoff codec db runId time = .ok after) :
    after = { db with setupActions := after.setupActions } ∧
      (∀ regime : Regime, Owned db →
        (regime.punctual → ∀ run ∈ db.setupRuns.rows, run.runId = runId →
          Follows codec db run time) → Works codec regime db after) := by
  simp only [completeBootstrapHandoff, except_bind_ok, orFail_ok] at ran
  obtain ⟨handoff, found, ran⟩ := ran
  split at ran
  · simp only [except_bind_ok, formatTime_ok] at ran
    obtain ⟨_, _, text, written, ran⟩ := ran
    obtain ⟨x, member, hits, only, rfl⟩ := updateSetupAction_ok ran
    refine ⟨rfl, fun regime owned timely => ?_⟩
    obtain ⟨own, _, started, run, runMember, ofRun, running⟩ := running_owner hits
    refine works_of_action owned runMember member ofRun hits only rfl rfl rfl ?_
    intro there
    refine .single (.acted there running written (.settles started
      ⟨⟨rfl, rfl, rfl, rfl⟩, rfl, rfl, ?_⟩ (.inl rfl)
      fun punctual => ((timely punctual run runMember (ofRun.symm.trans own)).2 x there).1))
    intro checked
    simp only [Checked, started] at checked
    simp [Checked, checked]
  · cases ran
    exact ⟨rfl, fun regime owned _ => works_same owned rfl rfl⟩
  · cases ran

/-- A completed bootstrap is a run that is finished with its handoff. -/
theorem completeBootstrapMaintenance_ok
    (ran : completeBootstrapMaintenance codec db owner time = .ok (status, after)) :
    ∃ middle ended, completeBootstrapHandoff codec db owner.operationId.text time = .ok middle ∧
      finishSetupRunInTransaction codec middle owner.operationId.text time = .ok (status, ended) ∧
      releaseActiveMaintenance codec ended owner = .ok after := by
  simp only [completeBootstrapMaintenance, except_bind_ok, ensure_ok] at ran
  obtain ⟨_, _, middle, handed, ⟨status, ended⟩, finished, _, _, _, released, made⟩ := ran
  cases made
  exact ⟨middle, ended, handed, finished, released⟩

theorem finishAndRelease_ok
    (ran : finishSetupRunAndReleaseMaintenance codec db owner time = .ok (status, after)) :
    ∃ ended, finishSetupRunInTransaction codec db owner.operationId.text time =
        .ok (status, ended) ∧ releaseActiveMaintenance codec ended owner = .ok after := by
  simp only [finishSetupRunAndReleaseMaintenance, except_bind_ok] at ran
  obtain ⟨_, _, ⟨status, ended⟩, finished, _, released, made⟩ := ran
  cases made
  exact ⟨ended, finished, released⟩

/-! ## Adoption -/

theorem recoveryAction_ok (found : recoveryAction db runId = some x) :
    x ∈ db.setupActions.rows ∧ x.runId = runId ∧ x.isResumable = true ∧
      ∀ a ∈ db.setupActions.rows, a.runId = runId → a.isResumable = true →
        x.status.resumeRank < a.status.resumeRank ∨
          (x.status.resumeRank = a.status.resumeRank ∧ x.actionOrder ≤ a.actionOrder) := by
  have chosen : x ∈ (db.setupActions.rows.filter fun action => action.runId = runId &&
      (db.setupRuns.rows.any fun run => run.runId = runId && run.status = "outcome_unknown") &&
      action.isResumable).argmin fun action =>
        (toLex (action.status.resumeRank, action.actionOrder) : Nat ×ₗ Nat) := found
  obtain ⟨member, accepted⟩ := List.mem_filter.mp (List.argmin_mem chosen)
  simp only [Bool.and_eq_true, decide_eq_true_eq] at accepted
  refine ⟨member, accepted.1.1, accepted.2, ?_⟩
  intro a there own resumable
  refine Prod.Lex.toLex_le_toLex.mp
    (List.le_of_mem_argmin (List.mem_filter.mpr ⟨there, ?_⟩) chosen)
  simp [own, accepted.1.2, resumable]

theorem resumeSetupAction_ok (member : x ∈ db.setupActions.rows) (own : x.runId = runId)
    (ran : resumeSetupAction db runId x acquiredAt = .ok after) :
    (after.setupActions.rows = if x.status = .completed then db.setupActions.rows
      else replace x (restarted acquiredAt x) db.setupActions.rows) ∧
      after = { db with setupActions := after.setupActions } := by
  unfold resumeSetupAction at ran
  by_cases completed : x.status = .completed
  · rw [if_pos completed] at ran ⊢
    cases ran
    exact ⟨rfl, rfl⟩
  · rw [if_neg completed] at ran ⊢
    obtain ⟨y, there, hits, only, rfl⟩ := updateSetupAction_ok ran
    have isX : y = x := (only x member (by simp [SetupActionRow.is, own])).symm
    rw [isX] at hits only
    exact ⟨map_patch_one hits only, rfl⟩

/-- A lease that has been taken over. -/
def adoption (owner : LeaseOwner) (acquiredAt : String) (lease : MaintenanceLeaseRow) :
    MaintenanceLeaseRow :=
  { lease with
    ownerProcessId := owner.processId
    ownerProcessStartRef := owner.processStartRef.text
    ownerBootIdentityRef := owner.bootIdentityRef.text
    acquiredAt := acquiredAt
    heartbeatAt := acquiredAt
    leaseState := "active" }

/-- An adoption, with the run and the lease it takes over and the action it resumes. -/
structure Adopted (codec : TimeCodec) (owner : LeaseOwner) (db after : Database)
    (run : SetupRunRow) (lease : MaintenanceLeaseRow) (x : SetupActionRow) (acquiredAt : String) :
    Prop where
  acquired : codec.format owner.acquiredAt = some acquiredAt
  member : run ∈ db.setupRuns.rows
  runId : run.runId = owner.operationId.text
  unknown : run.status = "outcome_unknown"
  runs : after.setupRuns.rows =
    db.setupRuns.rows.map (runUpdate run.runId "outcome_unknown" "running" none)
  chosen : recoveryAction db run.runId = some x
  actions : after.setupActions.rows = if x.status = .completed then db.setupActions.rows
    else replace x (restarted acquiredAt x) db.setupActions.rows
  leased : lease ∈ db.maintenanceLeases.rows
  operationId : lease.operationId = run.runId
  pending : lease.leaseState = "recovery_pending"
  leases : after.maintenanceLeases.rows = db.maintenanceLeases.rows.map
    fun other => if other = lease then adoption owner acquiredAt lease else other
  frame : after = { db with
    setupRuns := after.setupRuns
    setupActions := after.setupActions
    maintenanceLeases := after.maintenanceLeases }

theorem adoptRecoveryMaintenance_ok
    (ran : adoptRecoveryMaintenance codec db operationId owner = .ok after) :
    operationId = owner.operationId.text ∧
      ∃ run lease x acquiredAt, Adopted codec owner db after run lease x acquiredAt := by
  simp only [adoptRecoveryMaintenance, except_bind_ok, ensure_ok, orFail_ok, formatTime_ok] at ran
  obtain ⟨id, named, _, same, host, _, acquiredAt, acquired, x, chosen, middle, moved, last, resumed,
    leases, taken, made⟩ := ran
  cases made
  obtain ⟨run, member, own, unknown, runs, frame⟩ := updateSetupRun_ok moved
  obtain ⟨present, ofRun, _, _⟩ := recoveryAction_ok chosen
  have kept : middle.setupActions = db.setupActions := by rw [frame]
  obtain ⟨actions, frame'⟩ := resumeSetupAction_ok (kept ▸ present) ofRun resumed
  have sameLeases : last.maintenanceLeases = db.maintenanceLeases := by rw [frame', frame]
  have sameRuns : last.setupRuns = middle.setupRuns := by rw [frame']
  obtain ⟨one, rfl⟩ := Table.updateOne_eq_some.mp taken
  rw [sameLeases] at one
  obtain ⟨lease, leased, hits, only⟩ := Table.exists_of_countP_one one
  have hit := hits
  simp only [Bool.and_eq_true, decide_eq_true_eq] at hit
  refine ⟨(validatedPrivateReference_ok named).symm.trans same, run, lease, x, acquiredAt, {
    acquired := acquired
    member := member
    runId := own.trans same
    unknown := unknown
    runs := ?_
    chosen := own ▸ chosen
    actions := kept ▸ actions
    leased := leased
    operationId := hit.1.2.trans own.symm
    pending := hit.2
    leases := ?_
    frame := ?_ }⟩
  · rw [sameRuns, own]
    exact runs
  · rw [Table.rows_updateWhere, sameLeases]
    exact map_patch_one hits only
  · rw [frame', frame]

theorem Adopted.works (adopted : Adopted codec owner db after run lease x acquiredAt)
    (owned : Owned db)
    (careful : regime.careful → ∀ a ∈ (workOf db run).actions, a.status ≠ .failed)
    (timely : regime.punctual → Follows codec db run owner.acquiredAt) :
    Works codec regime db after := by
  obtain ⟨present, ofRun, resumable, least⟩ := recoveryAction_ok adopted.chosen
  have there : x ∈ (workOf db run).actions := mem_workOf.mpr ⟨present, ofRun⟩
  have resumed (rows : List SetupActionRow) : (if x.status = .completed then rows
      else replace x (restarted acquiredAt x) rows) = rows.map fun action =>
        if x.status ≠ .completed ∧ action = x then restarted acquiredAt x else action := by
    by_cases completed : x.status = .completed
    · simp [completed]
    · simp [completed, replace]
  have spared : ∀ action : SetupActionRow, action ≠ x →
      (if x.status ≠ .completed ∧ action = x then restarted acquiredAt x else action) = action :=
    fun action other => if_neg fun both => other both.2
  refine works_of_one owned adopted.member adopted.runs (adopted.actions.trans (resumed _))
    runUpdate_runId ?_ (fun _ _ other => runUpdate_other other) ?_ ?_
  · intro action _
    split
    · rename_i both
      rw [both.2]
      rfl
    · rfl
  · exact fun action _ other => spared action fun same => other (same ▸ ofRun)
  · rw [runUpdate_of rfl adopted.unknown, ← resumed]
    exact .single (.resumed there adopted.unknown resumable
      (fun a among => least a (mem_workOf.mp among).1 (mem_workOf.mp among).2) careful
      adopted.acquired fun punctual _ =>
        ⟨(timely punctual).1, fun a among _ => ((timely punctual).2 a among).2⟩)

/-! ## Restart -/

theorem laterOf_ok (ran : laterOf codec time stored = .ok later) :
    time ≤ later ∧ ∀ text ∈ stored, NotBefore codec later text := by
  cases stored with
  | none =>
    cases ran
    exact ⟨le_rfl, by simp⟩
  | some text =>
    simp only [laterOf, except_bind_ok, parseTime_ok] at ran
    obtain ⟨other, parsed, made⟩ := ran
    cases made
    refine ⟨le_max_left _ _, ?_⟩
    rintro _ ⟨⟩
    exact .of_parse parsed (le_max_right _ _)

/-- The time is raised to everything the actions record. -/
theorem recoveryTimes_ok {actions : List SetupActionRow}
    (ran : actions.foldlM (fun time action => do
      let time ← laterOf codec time action.startedAt
      laterOf codec time action.finishedAt) time = .ok last) :
    time ≤ last ∧ ∀ a ∈ actions,
      (∀ stored ∈ a.startedAt, NotBefore codec last stored) ∧ NotBeforeFinish codec last a := by
  induction actions generalizing time with
  | nil =>
    cases ran
    exact ⟨le_rfl, by simp⟩
  | cons first rest ih =>
    rw [List.foldlM_cons] at ran
    obtain ⟨middle, head, tail⟩ := except_bind_ok.mp ran
    obtain ⟨begun, started, ended⟩ := except_bind_ok.mp head
    obtain ⟨raised, afterStart⟩ := laterOf_ok started
    obtain ⟨raisedAgain, afterFinish⟩ := laterOf_ok ended
    obtain ⟨more, others⟩ := ih tail
    refine ⟨raised.trans (raisedAgain.trans more), List.forall_mem_cons.mpr ⟨?_, others⟩⟩
    exact ⟨fun stored there => (afterStart stored there).mono (raisedAgain.trans more),
      fun text there => (afterFinish text there).mono more⟩

theorem validatedStoredPrivateReference_ok
    (ran : validatedStoredPrivateReference value = .ok reference) : reference.text = value :=
  validatedPrivateReference_ok (mapError_ok.mp ran)

theorem recoveryTime_ok (ran : recoveryTime codec db detectedAt run = .ok recovered) :
    recovered.1 = run.runId ∧ Follows codec db run recovered.2 := by
  simp only [recoveryTime, except_bind_ok, parseTime_ok] at ran
  obtain ⟨runId, named, startedAt, parsed, time, raised, made⟩ := ran
  cases made
  obtain ⟨later, actions⟩ := recoveryTimes_ok raised
  exact ⟨validatedStoredPrivateReference_ok named,
    .of_parse parsed ((le_max_right _ _).trans later), actions⟩

section Restart
variable {times : List (String × OffsetDateTime)}

/-- The text under which a restart ends a run. -/
def recoveryText (codec : TimeCodec) (times : List (String × OffsetDateTime)) (runId : String) :
    String :=
  ((times.lookup runId).bind codec.format).getD ""

theorem interruptSetupAction_ok (ran : interruptSetupAction codec times db x = .ok after) :
    after.setupActions.rows = db.setupActions.rows.map (patch
        (fun action => action.is x.runId x.actionId && action.status = .started)
        (·.interrupted (recoveryText codec times x.runId))) ∧
      { after with setupActions := .empty } = { db with setupActions := .empty } := by
  simp only [interruptSetupAction, except_bind_ok, orFail_ok, formatTime_ok] at ran
  obtain ⟨runId, ofRun, actionId, named, time, known, text, written, ran⟩ := ran
  obtain ⟨_, _, _, _, rfl⟩ := updateSetupAction_ok ran
  have texts : recoveryText codec times x.runId = text := by
    rw [recoveryText, ← validatedStoredPrivateReference_ok ofRun, known]
    simp [written]
  rw [validatedStoredPrivateReference_ok ofRun, validatedStoredPrivateReference_ok named, texts]
  exact ⟨rfl, rfl⟩

/-- The actions that a restart interrupts are the started ones of the running runs. -/
theorem interruptSetupActions_ok {db after : Database}
    (ran : (db.setupActions.rows.filter fun action =>
      action.status = .started && isRunning db action.runId).foldlM
        (interruptSetupAction codec times) db = .ok after) :
    after.setupActions.rows = db.setupActions.rows.map (patch
        (fun action => action.status = .started && isRunning db action.runId)
        (fun action => action.interrupted (recoveryText codec times action.runId))) ∧
      { after with setupActions := .empty } = { db with setupActions := .empty } := by
  obtain ⟨rows, rest⟩ := foldlM_rows (fun db : Database => db.setupActions.rows)
    (fun db : Database => { db with setupActions := .empty }) interruptSetupAction_ok ran
  refine ⟨rows.trans (List.map_congr_left fun row member => ?_), rest⟩
  rcases foldl_patch
      (fun x action => SetupActionRow.is x.runId x.actionId action && action.status = .started)
      (fun x action => action.interrupted (recoveryText codec times x.runId))
      (db.setupActions.rows.filter fun action =>
        action.status = .started && isRunning db action.runId)
      (fun x y _ => by simp [SetupActionRow.interrupted]) with
    ⟨none, same⟩ | ⟨x, chosen, hit, made⟩
  · refine Eq.trans same ?_
    rw [patch, if_neg]
    intro selected
    have spared := none row (List.mem_filter.mpr ⟨member, selected⟩)
    simp only [Bool.and_eq_true, decide_eq_true_eq] at selected
    simp [SetupActionRow.is, selected.1] at spared
  · obtain ⟨there, selected⟩ := List.mem_filter.mp chosen
    simp only [SetupActionRow.is, Bool.and_eq_true, decide_eq_true_eq] at hit
    have isX : row = x := Table.row_unique member there (Prod.ext hit.1.1 hit.1.2)
    refine Eq.trans made ?_
    rw [isX, patch, if_pos selected]

theorem interruptSetupRun_ok
    (ran : interruptSetupRun codec db recovered = .ok after) :
    after.setupRuns.rows = db.setupRuns.rows.map (runUpdate recovered.1 "running" "outcome_unknown"
        (some ((codec.format recovered.2).getD ""))) ∧
      { after with setupRuns := .empty } = { db with setupRuns := .empty } := by
  simp only [interruptSetupRun, except_bind_ok, formatTime_ok] at ran
  obtain ⟨text, written, ran⟩ := ran
  obtain ⟨_, _, _, _, rows, same⟩ := updateSetupRun_ok ran
  rw [written]
  refine ⟨rows, ?_⟩
  rw [same]

/-- Each running run has one time. -/
theorem recoveryTimes_lookup {db : Database}
    (timed : (db.setupRuns.rows.filter (·.status = "running")).mapM
      (recoveryTime codec db detectedAt) = .ok times)
    (member : run ∈ db.setupRuns.rows) (running : run.status = "running") :
    ∃ time, times.lookup run.runId = some time ∧ (run.runId, time) ∈ times ∧
      (∀ other, (run.runId, other) ∈ times → other = time) ∧ Follows codec db run time := by
  obtain ⟨⟨name, time⟩, there, made⟩ :=
    (mapM_mem timed).1 _ (List.mem_filter.mpr ⟨member, by simpa using running⟩)
  obtain ⟨rfl, follows⟩ := recoveryTime_ok made
  have only : ∀ other, (run.runId, other) ∈ times → other = time := by
    intro other also
    obtain ⟨origin, from_, again⟩ := (mapM_mem timed).2 _ also
    have same : origin = run := Table.row_unique (List.mem_filter.mp from_).1 member
      (recoveryTime_ok again).1.symm
    rw [same, made] at again
    cases again
    rfl
  have known : (times.lookup run.runId).isSome = true :=
    List.lookup_isSome_iff.mpr ⟨_, there, by simp⟩
  obtain ⟨found, looked⟩ := Option.isSome_iff_exists.mp known
  obtain ⟨front, back, split, _⟩ := List.lookup_eq_some_iff.mp looked
  rw [only found (by simp [split])] at looked
  exact ⟨time, looked, there, only, follows⟩

theorem interruptSetupRuns_ok {db before after : Database} (sameRuns : before.setupRuns = db.setupRuns)
    (timed : (db.setupRuns.rows.filter (·.status = "running")).mapM
      (recoveryTime codec db detectedAt) = .ok times)
    (ran : times.foldlM (interruptSetupRun codec) before = .ok after) :
    after.setupRuns.rows = db.setupRuns.rows.map (patch (fun run => run.status = "running")
        (fun run => { run with
          status := "outcome_unknown"
          finishedAt := some (recoveryText codec times run.runId) })) ∧
      { after with setupRuns := .empty } = { before with setupRuns := .empty } := by
  obtain ⟨rows, rest⟩ := foldlM_rows (fun db : Database => db.setupRuns.rows)
    (fun db : Database => { db with setupRuns := .empty }) interruptSetupRun_ok ran
  refine ⟨?_, rest⟩
  rw [rows, sameRuns]
  refine List.map_congr_left fun run member => ?_
  rcases foldl_patch
      (fun (recovered : String × OffsetDateTime) (run : SetupRunRow) =>
        run.runId = recovered.1 && run.status = "running")
      (fun recovered run => { run with
        status := "outcome_unknown"
        finishedAt := some ((codec.format recovered.2).getD "") }) times
      (fun x y _ => by simp) with
    ⟨none, same⟩ | ⟨⟨name, time⟩, there, hit, made⟩
  · refine Eq.trans same ?_
    rw [patch, if_neg]
    intro running
    obtain ⟨time, _, there, _⟩ := recoveryTimes_lookup timed member (of_decide_eq_true running)
    have spared := none _ there
    simp [of_decide_eq_true running] at spared
  · simp only [Bool.and_eq_true, decide_eq_true_eq] at hit
    obtain ⟨rfl, running⟩ := hit
    obtain ⟨found, looked, _, only, _⟩ := recoveryTimes_lookup timed member running
    refine Eq.trans made ?_
    rw [patch, if_pos (by simpa using running), recoveryText, looked, only time there]
    rfl

/-- What the marks of a restart do. -/
structure Interrupted (codec : TimeCodec) (times : List (String × OffsetDateTime))
    (db after : Database) : Prop where
  timed : ∀ run ∈ db.setupRuns.rows, run.status = "running" → ∃ time,
    codec.format time = some (recoveryText codec times run.runId) ∧ Follows codec db run time
  runs : after.setupRuns.rows = db.setupRuns.rows.map (patch (fun run => run.status = "running")
    (fun run => { run with
      status := "outcome_unknown"
      finishedAt := some (recoveryText codec times run.runId) }))
  actions : after.setupActions.rows = db.setupActions.rows.map (patch
    (fun action => action.status = .started && isRunning db action.runId)
    (fun action => action.interrupted (recoveryText codec times action.runId)))
  leases : after.maintenanceLeases.rows = db.maintenanceLeases.rows.map (patch
    (fun lease => lease.leaseState = "active")
    (fun lease => { lease with leaseState := "recovery_pending" }))
  frame : after = { db with
    setupRuns := after.setupRuns
    setupActions := after.setupActions
    maintenanceLeases := after.maintenanceLeases }

theorem markInterrupted_ok {db after : Database}
    (ran : markInterruptedSetupActionsOutcomeUnknown codec db detectedAt = .ok after) :
    ∃ times, Interrupted codec times db after := by
  simp only [markInterruptedSetupActionsOutcomeUnknown, except_bind_ok] at ran
  obtain ⟨times, timed, middle, acted, last, marked, made⟩ := ran
  cases made
  obtain ⟨actions, rest⟩ := interruptSetupActions_ok acted
  have runsKept := congrArg Database.setupRuns rest
  have sameRuns : middle.setupRuns = db.setupRuns := runsKept
  obtain ⟨runs, rest'⟩ := interruptSetupRuns_ok sameRuns timed marked
  have actionsKept := congrArg Database.setupActions rest'
  have sameActions : last.setupActions = middle.setupActions := actionsKept
  let filled (db : Database) : Database := { db with
    setupRuns := last.setupRuns, setupActions := last.setupActions }
  have filledMiddle := congrArg filled rest'
  have filledLast := congrArg filled rest
  have frame : last = filled db := filledMiddle.trans filledLast
  refine ⟨times, {
    timed := ?_
    runs := runs
    actions := sameActions ▸ actions
    leases := ?_
    frame := ?_ }⟩
  · intro run member running
    obtain ⟨time, looked, there, _, follows⟩ := recoveryTimes_lookup timed member running
    obtain ⟨_, _, ended⟩ := foldlM_mem marked there
    simp only [interruptSetupRun, except_bind_ok, formatTime_ok] at ended
    obtain ⟨text, written, _⟩ := ended
    refine ⟨time, ?_, follows⟩
    rw [recoveryText, looked]
    simp [written]
  · have sameLeases : last.maintenanceLeases = db.maintenanceLeases := by rw [frame]
    unfold markMaintenanceLeases
    rw [Table.rows_updateWhere, sameLeases]
  · unfold markMaintenanceLeases
    rw [frame]

end Restart

theorem Interrupted.works (interrupted : Interrupted codec times db after) (owned : Owned db) :
    Works codec regime db after := by
  refine works_of_map owned interrupted.runs interrupted.actions ?_ ?_ ?_
  · intro run _
    unfold patch
    split <;> rfl
  · intro action _
    unfold patch
    split <;> rfl
  · intro run member
    by_cases running : run.status = "running"
    · obtain ⟨time, written, follows⟩ := interrupted.timed run member running
      rw [patch, if_pos (decide_eq_true running)]
      refine .single (.lost running ?_ written fun _ => follows)
      intro a there
      obtain ⟨_, ofRun⟩ := mem_workOf.mp there
      have isRunning : isRunning db a.runId = true :=
        isRunning_iff.mpr ⟨run, member, ofRun.symm, running⟩
      by_cases started : a.status = .started
      · simp only [patch, started, isRunning, decide_true, Bool.and_self, if_true]
        rw [ofRun]
        exact .ends started (interrupted_ended started _) rfl
      · exact .stays started (by simp [patch, started])
    · have kept : (workOf db run).actions.map (patch
          (fun action => action.status = .started && isRunning db action.runId)
          (fun action => action.interrupted (recoveryText codec times action.runId))) =
          (workOf db run).actions := by
        refine (List.map_congr_left fun a there => ?_).trans (List.map_id _)
        have idle : isRunning db a.runId = false := by
          rw [Bool.eq_false_iff]
          intro isRunning
          obtain ⟨other, also, names, busy⟩ := isRunning_iff.mp isRunning
          rw [Table.row_unique also member (names.trans (mem_workOf.mp there).2)] at busy
          exact running busy
        simp [patch, idle]
      rw [kept]
      rw [patch, if_neg (by simp [running])]
      exact .refl

/-! ## Reconciliation -/

/-- What a reconciliation makes of an action. -/
def reconciliation (runId code text : String) (outcomes : List (String × Bool))
    (action : SetupActionRow) : SetupActionRow :=
  patch (fun action => action.runId = runId && action.status = .planned)
    (fun action => { action with
      status := .skipped
      finishedAt := some text
      skipReason := some .dependencyFailed })
    (outcomes.foldl (fun action outcome => patch
      (fun action => action.is runId outcome.1 && action.status = .outcomeUnknown)
      (·.reconciled code outcome.2 text) action) action)

/-- The observed outcomes settle an action whose outcome is unknown, or leave it. -/
theorem reconciliation_outcomes (runId code text : String) (outcomes : List (String × Bool))
    (a : SetupActionRow) :
    let settled := outcomes.foldl (fun action outcome => patch
      (fun action => action.is runId outcome.1 && action.status = .outcomeUnknown)
      (·.reconciled code outcome.2 text) action) a
    settled = a ∨ (a.runId = runId ∧ a.status = .outcomeUnknown ∧ Ended text a settled ∧
      (settled.status = .completed ∨ settled.status = .failed)) := by
  intro settled
  have once : ∀ x y : String × Bool,
      (SetupActionRow.is runId x.1 a && decide (a.status = .outcomeUnknown)) = true →
      (SetupActionRow.is runId y.1 (a.reconciled code x.2 text) &&
        decide ((a.reconciled code x.2 text).status = .outcomeUnknown)) = false := by
    intro x y _
    cases satisfied : x.2 <;> simp [SetupActionRow.reconciled]
  rcases foldl_patch
      (fun (outcome : String × Bool) action =>
        SetupActionRow.is runId outcome.1 action && action.status = .outcomeUnknown)
      (fun outcome action => action.reconciled code outcome.2 text) outcomes once with
    ⟨_, same⟩ | ⟨outcome, _, hit, made⟩
  · exact .inl same
  · simp only [SetupActionRow.is, Bool.and_eq_true, decide_eq_true_eq] at hit
    refine .inr ⟨hit.1.1, hit.2, ?_⟩
    have isMade : settled = a.reconciled code outcome.2 text := made
    rw [isMade]
    have kept (checked : Checked a) : Checked (a.reconciled code outcome.2 text) := by
      simp only [Checked, hit.2] at checked
      cases outcome.2 <;> simp [Checked, SetupActionRow.reconciled, checked]
    cases satisfied : outcome.2 with
    | true => exact ⟨⟨⟨rfl, rfl, rfl, rfl⟩, rfl, rfl, satisfied ▸ kept⟩, .inl rfl⟩
    | false => exact ⟨⟨⟨rfl, rfl, rfl, rfl⟩, rfl, rfl, satisfied ▸ kept⟩, .inr rfl⟩

theorem reconciliation_other (other : a.runId ≠ runId) :
    reconciliation runId code text outcomes a = a := by
  unfold reconciliation
  rcases reconciliation_outcomes runId code text outcomes a with same | ⟨own, _⟩
  · rw [same]
    simp [patch, other]
  · exact absurd own other

/-- An action that the reconciliation leaves is neither started nor unknown. -/
theorem reconciliation_own (own : a.runId = runId)
    (left : reconciliation runId code text outcomes a = a →
      a.status ≠ .started ∧ a.status ≠ .outcomeUnknown) :
    Reconciles text a (reconciliation runId code text outcomes a) := by
  unfold reconciliation at left ⊢
  rcases reconciliation_outcomes runId code text outcomes a with same | ⟨_, unknown, ended, known⟩
  · rw [same] at left ⊢
    by_cases planned : a.status = .planned
    · exact .skips planned (by simp [patch, own, planned])
    · rw [patch, if_neg (by simp [planned])] at left ⊢
      obtain ⟨started, unknown⟩ := left rfl
      exact .stays (settled_of_ne planned started unknown) rfl
  · rw [patch, if_neg (by rcases known with known | known <;> simp [known])]
    exact .ends unknown ended known

theorem reconcileSetupAction_ok
    (ran : reconcileSetupAction runId code text db outcome = .ok after) :
    after.setupActions.rows = db.setupActions.rows.map (patch
        (fun action => action.is runId outcome.1 && action.status = .outcomeUnknown)
        (·.reconciled code outcome.2 text)) ∧
      { after with setupActions := .empty } = { db with setupActions := .empty } := by
  obtain ⟨_, _, _, _, rfl⟩ := updateSetupAction_ok ran
  exact ⟨rfl, rfl⟩

/-- A reconciliation, with the run and the lease it ends. -/
structure Reconciled (codec : TimeCodec) (subject : MaintenanceRecoverySubject)
    (now : OffsetDateTime) (db after : Database) (status : SetupRunStatus) (run : SetupRunRow)
    (lease : MaintenanceLeaseRow) (text : String) (change : SetupActionRow → SetupActionRow) :
    Prop where
  written : codec.format (subject.run.reconciledAt now) = some text
  member : run ∈ db.setupRuns.rows
  runId : run.runId = subject.owner.operationId.text
  unknown : run.status = "outcome_unknown"
  terminal : status = .completed ∨ status = .failed ∨ status = .partialFailure
  runs : after.setupRuns.rows =
    db.setupRuns.rows.map (runUpdate run.runId "outcome_unknown" status.asStr (some text))
  actions : after.setupActions.rows = db.setupActions.rows.map change
  others : ∀ a ∈ db.setupActions.rows, a.runId ≠ run.runId → change a = a
  reconciles : ∀ a ∈ (workOf db run).actions, Reconciles text a (change a)
  leased : lease ∈ db.maintenanceLeases.rows
  operationId : lease.operationId = run.runId
  pending : lease.leaseState = "recovery_pending"
  unheld : hasControlLeaseOf db lease.operationId = false
  leases : ∀ other, other ∈ after.maintenanceLeases.rows ↔
    other ∈ db.maintenanceLeases.rows ∧ other ≠ lease
  frame : after = { db with
    setupRuns := after.setupRuns
    setupActions := after.setupActions
    maintenanceLeases := after.maintenanceLeases }

theorem ownedBy_operationId {lease : MaintenanceLeaseRow}
    (owned : lease.ownedBy owner acquiredAt = true) :
    lease.operationId = owner.operationId.text := by
  simp only [MaintenanceLeaseRow.ownedBy, LeaseOwner.owns, Bool.and_eq_true,
    decide_eq_true_eq] at owned
  exact owned.1.1.1.1

/-- The second half of a reconciliation: every action has been settled. -/
theorem reconciled_of {status : SetupRunStatus}
    (tallied : tallySetupActions middle subject.owner.operationId.text = .ok tally)
    (pending : tally.pending = 0) (unknown : tally.unknown = 0) (isStatus : tally.outcome = status)
    (written : codec.format (subject.run.reconciledAt now) = some text)
    (rows : middle.setupActions.rows = db.setupActions.rows.map
      (reconciliation subject.owner.operationId.text code text outcomes))
    (kept : { middle with setupActions := .empty } = { db with setupActions := .empty })
    (moved : updateSetupRun middle subject.owner.operationId.text "outcome_unknown" status.asStr
      (some text) = .ok ended)
    (deleted : ended.maintenanceLeases.deleteOne (fun lease =>
      lease.ownedBy subject.owner acquiredAt && lease.leaseState = "recovery_pending" &&
        !hasControlLeaseOf ended lease.operationId) = some leases) :
    ∃ run lease, Reconciled codec subject now db { ended with maintenanceLeases := leases } status
      run lease text (reconciliation subject.owner.operationId.text code text outcomes) := by
  obtain ⟨run, member, own, isUnknown, runs, frame'⟩ := updateSetupRun_ok moved
  have frame : middle = { db with setupActions := middle.setupActions } :=
    congrArg (fun other : Database => { other with setupActions := middle.setupActions }) kept
  have sameRuns : middle.setupRuns = db.setupRuns := by rw [frame]
  have sameActions : ended.setupActions = middle.setupActions := by rw [frame']
  have sameLeases : ended.maintenanceLeases = db.maintenanceLeases := by rw [frame', frame]
  have sameControls : ended.controlLeases = db.controlLeases := by rw [frame', frame]
  obtain ⟨lease, leased, hit, rest⟩ := Table.exists_of_deleteOne deleted
  simp only [Bool.and_eq_true, decide_eq_true_eq, Bool.not_eq_true'] at hit
  obtain ⟨none, known⟩ := tallySetupActions_ok tallied
  refine ⟨run, lease, {
    written := written
    member := sameRuns ▸ member
    runId := own
    unknown := isUnknown
    terminal := isStatus ▸ tally_outcome tally
    runs := ?_
    actions := by rw [sameActions, rows]
    others := fun a _ other => reconciliation_other (own ▸ other)
    reconciles := ?_
    leased := sameLeases ▸ leased
    operationId := (ownedBy_operationId hit.1.1).trans own.symm
    pending := hit.1.2
    unheld := ?_
    leases := ?_
    frame := by rw [frame', frame] }⟩
  · rw [own, ← sameRuns]
    exact runs
  · intro a there
    obtain ⟨present, ofRun⟩ := mem_workOf.mp there
    refine reconciliation_own (ofRun.trans own) fun same => ?_
    -- What is left is still there for the tally to count.
    have still : a ∈ middle.setupActions.rows := rows ▸ List.mem_map.mpr ⟨a, present, same⟩
    exact ⟨(none.mp pending a still (ofRun.trans own)).2, known.mp unknown a still (ofRun.trans own)⟩
  · have := hit.2
    unfold hasControlLeaseOf at this ⊢
    rw [sameControls] at this
    exact this
  · intro other
    rw [rest other, sameLeases]

theorem reconcileMaintenance_ok
    (ran : reconcileMaintenanceAfterRestart codec db subject verified now = .ok (reply, after)) :
    (reply = none ∧ after = db) ∨ ∃ status run lease text change, reply = some status ∧
      Reconciled codec subject now db after status run lease text change := by
  unfold reconcileMaintenanceAfterRestart at ran
  rcases ite_eq_iff.mp ran with ⟨_, ran⟩ | ⟨_, ran⟩
  · cases ran
    exact .inl ⟨rfl, rfl⟩
  · simp only [except_bind_ok, formatTime_ok, orFail_ok, terminalSetupStatus, ensure_ok] at ran
    obtain ⟨outcomes, _, acquiredAt, _, _, _, text, written, settled, folded, status,
      ⟨tally, tallied, _, ⟨pending, unknown⟩, made⟩, ended, moved, leases, deleted, final⟩ := ran
    obtain ⟨rows, rest⟩ := foldlM_rows (fun db : Database => db.setupActions.rows)
      (fun db : Database => { db with setupActions := .empty }) reconcileSetupAction_ok folded
    have reconciles : settled.setupActions.rows.map (patch
        (fun action => action.runId = subject.owner.operationId.text && action.status = .planned)
        (fun action => { action with
          status := .skipped
          finishedAt := some text
          skipReason := some .dependencyFailed })) = db.setupActions.rows.map
        (reconciliation subject.owner.operationId.text subject.run.operationKind.unsatisfiedCode text
          outcomes) := by
      rw [rows, List.map_map]
      rfl
    obtain ⟨run, lease, reconciled⟩ := reconciled_of tallied pending unknown (Except.ok.inj made)
      written reconciles rest moved deleted
    cases final
    exact .inr ⟨status, run, lease, text, _, rfl, reconciled⟩

theorem le_foldl_max (l : List Int) (start : Int) :
    start ≤ l.foldl max start ∧ ∀ x ∈ l, x ≤ l.foldl max start := by
  induction l generalizing start with
  | nil => simp
  | cons first rest ih =>
    obtain ⟨more, others⟩ := ih (max start first)
    exact ⟨(le_max_left _ _).trans more,
      List.forall_mem_cons.mpr ⟨(le_max_right _ _).trans more, others⟩⟩

/-- The time of a reconciliation whose subject is the stored run. -/
theorem reconciledAt_follows (member : run ∈ db.setupRuns.rows)
    (loaded : loadSetupRun codec db run.runId = .ok (some record)) (now : OffsetDateTime) :
    NotBefore codec (record.reconciledAt now) run.startedAt ∧
      ∀ a ∈ (workOf db run).actions, NotBeforeFinish codec (record.reconciledAt now) a := by
  simp only [loadSetupRun, except_bind_ok] at loaded
  obtain ⟨runId, named, loaded⟩ := loaded
  have isRun : db.setupRuns.lookup runId.text = some run :=
    Table.lookup_eq_some.mpr ⟨member, (validatedPrivateReference_ok named).symm⟩
  rw [isRun] at loaded
  simp only [except_bind_ok, parseTime_ok] at loaded
  obtain ⟨_, _, actions, converted, _, _, _, _, _, _, _, _, startedAt, parsed, _, _, made⟩ := loaded
  cases made
  obtain ⟨raised, others⟩ := le_foldl_max (actions.filterMap (·.finishedAt)) (max now startedAt)
  refine ⟨.of_parse parsed ((le_max_right _ _).trans raised), ?_⟩
  intro a there text finished boundary same
  have among : a ∈ actionsOf db runId.text := by
    rw [validatedPrivateReference_ok named]
    exact mem_actionsOf.mpr (mem_workOf.mp there)
  obtain ⟨action, present, read⟩ := (mapM_mem converted).1 _ among
  simp only [loadSetupAction, except_bind_ok] at read
  obtain ⟨_, _, _, _, _, _, finishedAt, ended, _, _, _, _, made⟩ := read
  cases made
  have known : finishedAt = some boundary := by
    rw [Option.mem_def.mp finished, Option.mapM_some, parseTime_ok.mpr same] at ended
    exact (Except.ok.inj ended).symm
  exact others boundary (List.mem_filterMap.mpr ⟨_, present, known⟩)

theorem Reconciled.works
    (reconciled : Reconciled codec subject now db after status run lease text change)
    (owned : Owned db)
    (loaded : regime.punctual →
      loadSetupRun codec db subject.owner.operationId.text = .ok (some subject.run)) :
    Works codec regime db after := by
  refine works_of_one owned reconciled.member reconciled.runs reconciled.actions runUpdate_runId ?_
    (fun _ _ other => runUpdate_other other) reconciled.others ?_
  · intro a there
    by_cases own : a.runId = run.runId
    · exact (reconciled.reconciles a (mem_workOf.mpr ⟨there, own⟩)).survives.runId
    · rw [reconciled.others a there own]
  · rw [runUpdate_of rfl reconciled.unknown]
    exact .single (.reconciled reconciled.unknown reconciled.reconciles
      reconciled.terminal reconciled.written fun punctual =>
        reconciledAt_follows reconciled.member (reconciled.runId ▸ loaded punctual) now)

/-! ## Leases handed to recovery -/

/-- Leases that an owner leaves to recovery. -/
def handedOver (owner : LeaseOwner) (acquiredAt : String) (db : Database) : Database :=
  retainMaintenanceLease (retainControlLeases db owner acquiredAt) owner acquiredAt

theorem retainLeaseRecovery_ok (ran : retainLeaseRecovery codec db owner now = .ok after) :
    ∃ acquiredAt middle, codec.format owner.acquiredAt = some acquiredAt ∧
      expectedControlLeases db owner.operationId.text ≤ 1 ∧
      ((isRunning db owner.operationId.text = true ∧ markSetupRunOutcomeUnknownInTransaction codec db
        owner.operationId.text now = .ok middle) ∨
        (isRunning db owner.operationId.text = false ∧ middle = db)) ∧
      countMaintenanceLeases middle owner acquiredAt = 1 ∧
      countControlLeases middle owner acquiredAt =
        expectedControlLeases db owner.operationId.text ∧
      after = handedOver owner acquiredAt middle := by
  simp only [retainLeaseRecovery, except_bind_ok, ensure_ok, formatTime_ok] at ran
  obtain ⟨acquiredAt, acquired, _, one, middle, marked, _, ⟨leases, controls⟩, made⟩ := ran
  cases made
  refine ⟨acquiredAt, middle, acquired, one, ?_, leases, controls, rfl⟩
  unfold loseRunningSetupRun at marked
  rcases ite_eq_iff.mp marked with ⟨running, marked⟩ | ⟨idle, same⟩
  · exact .inl ⟨running, marked⟩
  · cases same
    exact .inr ⟨Bool.eq_false_iff.mpr idle, rfl⟩

theorem handedOver_works (owned : Owned db) : Works codec regime db (handedOver owner acquiredAt db) :=
  works_same owned rfl rfl

theorem retainLeaseRecovery_works (owned : Owned db)
    (ran : retainLeaseRecovery codec db owner now = .ok after)
    (timely : regime.punctual → ∀ run ∈ db.setupRuns.rows, run.runId = owner.operationId.text →
      Follows codec db run now) : Works codec regime db after := by
  obtain ⟨acquiredAt, middle, _, _, marked, _, _, rfl⟩ := retainLeaseRecovery_ok ran
  rcases marked with ⟨_, marked⟩ | ⟨_, rfl⟩
  · obtain ⟨run, member, text, own, running, written, runs, actions, _⟩ :=
      markOutcomeUnknown_ok marked
    have works : Works codec regime db middle := by
      refine works_of_lost owned member own running runs actions ?_ ?_ written
        fun punctual => timely punctual run member own
      · exact fun a _ other => interruption_other (own ▸ other)
      · exact fun a there => interruption_interrupts ((mem_workOf.mp there).2.trans own)
    exact works.trans (handedOver_works works.owned)
  · exact handedOver_works owned

/-! ## The postcheck -/

theorem beginMaintenancePostcheck_ok
    (ran : beginMaintenancePostcheck codec db binding probeRef actionId owner = .ok after) :
    ∃ host acquiredAt probe lease, hostIdentity db = .ok host ∧
      codec.format owner.acquiredAt = some acquiredAt ∧
      (∃ maintenance ∈ db.maintenanceLeases.rows, maintenance.hostIdentityRef = host.text ∧
        maintenance.ownedBy owner acquiredAt = true ∧ maintenance.leaseState = "active") ∧
      (∀ control ∈ db.controlLeases.rows, control.hostIdentityRef ≠ host.text) ∧
      lease = probeLease .native host binding probe owner acquiredAt ∧
      after.controlLeases.rows = db.controlLeases.rows ++ [lease] ∧
      after = { db with controlLeases := after.controlLeases } := by
  simp only [beginMaintenancePostcheck, insertProbeLease, except_bind_ok, ensure_ok, orFail_ok,
    formatTime_ok] at ran
  obtain ⟨host, known, probe, _, _, _, acquiredAt, acquired, _, owns, _, _, _, free, again, written,
    _, _, leases, inserted, made⟩ := ran
  cases made
  rw [acquired] at written
  cases written
  refine ⟨host, acquiredAt, probe, _, known, acquired, ?_, ?_, rfl,
    (Table.insert_eq_some.mp inserted).2, rfl⟩
  · obtain ⟨lease, member, hit⟩ := List.any_eq_true.mp owns
    simp only [Bool.and_eq_true, decide_eq_true_eq] at hit
    exact ⟨lease, member, hit.1.1, hit.1.2, hit.2⟩
  · intro control member
    simpa using List.all_eq_true.mp free control member

theorem postchecked_ended (started : x.status = .started) (text : String)
    (verified : VerifiedMaintenancePostcheck) : Ended text x (x.postchecked verified text) := by
  have kept (checked : Checked x) : Checked (x.postchecked verified text) := by
    simp only [Checked, started] at checked
    cases verified with
    | failed terminal => cases terminal <;> simp [Checked, SetupActionRow.postchecked, checked]
    | _ => simp [Checked, SetupActionRow.postchecked, checked]
  cases verified with
  | failed terminal => cases terminal <;> exact ⟨⟨rfl, rfl, rfl, rfl⟩, rfl, rfl, kept⟩
  | _ => exact ⟨⟨rfl, rfl, rfl, rfl⟩, rfl, rfl, kept⟩

/-- A postcheck that is settled: its run is finished and both leases are gone. -/
structure PostcheckSettled (codec : TimeCodec) (owner : LeaseOwner) (now : OffsetDateTime)
    (host : HostIdentityRef) (acquiredAt : String) (db checked ended after : Database)
    (status : SetupRunStatus) (control : ControlLeaseRow) (lease : MaintenanceLeaseRow) :
    Prop where
  finished : finishSetupRunInTransaction codec checked owner.operationId.text now =
    .ok (status, ended)
  held : control ∈ db.controlLeases.rows
  controlOwned : control.isOwnedBy owner acquiredAt = true
  leased : lease ∈ db.maintenanceLeases.rows
  onHost : lease.hostIdentityRef = host.text
  leaseOwned : lease.ownedBy owner acquiredAt = true
  active : lease.leaseState = "active"
  controls : ∀ other, other ∈ after.controlLeases.rows ↔
    other ∈ db.controlLeases.rows ∧ other ≠ control
  leases : ∀ other, other ∈ after.maintenanceLeases.rows ↔
    other ∈ db.maintenanceLeases.rows ∧ other ≠ lease
  frame : after = { ended with
    controlLeases := after.controlLeases
    maintenanceLeases := after.maintenanceLeases }

/-- The action of a postcheck is the one action that is moved. -/
structure PostcheckRecorded (codec : TimeCodec) (owner : LeaseOwner)
    (verified : VerifiedMaintenancePostcheck) (now : OffsetDateTime) (db checked : Database)
    (run : SetupRunRow) (x : SetupActionRow) (text : String) : Prop where
  written : codec.format now = some text
  member : x ∈ db.setupActions.rows
  runMember : run ∈ db.setupRuns.rows
  runId : run.runId = owner.operationId.text
  ofRun : x.runId = run.runId
  started : x.status = .started
  running : run.status = "running"
  actions : checked.setupActions.rows = db.setupActions.rows.map
    (patch (fun action => action = x) (·.postchecked verified text))
  frame : checked = { db with setupActions := checked.setupActions }

theorem postcheckRecorded_of (written : codec.format now = some text)
    (ran : updateSetupAction db (fun action => action.is owner.operationId.text actionId &&
      action.status = .started && isRunning db owner.operationId.text)
      (·.postchecked verified text) keeps = .ok checked) :
    ∃ run x, PostcheckRecorded codec owner verified now db checked run x text := by
  obtain ⟨x, member, hits, only, rfl⟩ := updateSetupAction_ok ran
  obtain ⟨own, _, started, run, runMember, ofRun, running⟩ := running_owner hits
  refine ⟨run, x, written, member, runMember, ofRun.symm.trans own, ofRun, started, running, ?_, rfl⟩
  refine (map_patch_one (x := x) hits only).trans (Eq.symm ?_)
  exact map_patch_one (decide_eq_true rfl) fun _ _ met => of_decide_eq_true met

theorem finishMaintenancePostcheck_ok
    (ran : finishMaintenancePostcheck codec db owner probeRef actionId verified stored now =
      .ok (reply, after)) :
    ∃ host acquiredAt probe checked run x text, hostIdentity db = .ok host ∧
      codec.format owner.acquiredAt = some acquiredAt ∧
      ownsPostcheckPair db host owner acquiredAt probe = true ∧
      PostcheckRecorded codec owner verified now db checked run x text ∧
      ((reply = none ∧ verified = .unknown ∧ ∃ lost,
        markSetupRunOutcomeUnknownInTransaction codec checked owner.operationId.text now = .ok lost ∧
        countControlLeases lost owner acquiredAt = 1 ∧
        countMaintenanceLeases lost owner acquiredAt = 1 ∧
        after = handedOver owner acquiredAt lost) ∨
      ∃ status ended control lease, reply = some status ∧
        ((x.postchecked verified text).status = .completed ∨
          (x.postchecked verified text).status = .failed) ∧
        PostcheckSettled codec owner now host acquiredAt db checked ended after status control
          lease) := by
  simp only [finishMaintenancePostcheck, except_bind_ok, ensure_ok, formatTime_ok] at ran
  obtain ⟨probe, _, action, _, host, known, acquiredAt, acquired, _, owns, text, written, checked,
    updated, _, evidence, ran⟩ := ran
  obtain ⟨run, x, recorded⟩ := postcheckRecorded_of written updated
  refine ⟨host, acquiredAt, probe, checked, run, x, text, known, acquired, owns, recorded, ?_⟩
  rcases ite_eq_iff.mp ran with ⟨unknown, ran⟩ | ⟨settles, ran⟩
  · simp only [except_bind_ok, ensure_ok] at ran
    obtain ⟨lost, marked, _, controls, _, leases, made⟩ := ran
    cases made
    exact .inl ⟨rfl, unknown, lost, marked, controls, leases, rfl⟩
  · simp only [except_bind_ok, orFail_ok] at ran
    obtain ⟨⟨status, ended⟩, finished, controls, controlDeleted, leases, leaseDeleted, made⟩ := ran
    cases made
    obtain ⟨_, _, _, _, _, _, _, _, _, _, _, frame⟩ := finishSetupRun_ok finished
    have sameControls : ended.controlLeases = db.controlLeases := by rw [frame, recorded.frame]
    have sameLeases : ended.maintenanceLeases = db.maintenanceLeases := by
      rw [frame, recorded.frame]
    obtain ⟨control, held, hitControl, controlRest⟩ := Table.exists_of_deleteOne controlDeleted
    obtain ⟨lease, leased, hitLease, leaseRest⟩ := Table.exists_of_deleteOne leaseDeleted
    simp only [Bool.and_eq_true, decide_eq_true_eq] at hitControl hitLease
    refine .inr ⟨status, ended, control, lease, rfl, ?_, {
      finished := finished
      held := sameControls ▸ held
      controlOwned := hitControl.1.2
      leased := sameLeases ▸ leased
      onHost := hitLease.1.1
      leaseOwned := hitLease.1.2
      active := hitLease.2
      controls := fun other => by rw [controlRest other, sameControls]
      leases := fun other => by rw [leaseRest other, sameLeases]
      frame := rfl }⟩
    cases verified with
    | passed => exact .inl rfl
    | unknown => exact absurd rfl settles
    | failed terminal =>
      cases terminal with
      | failed | timedOut => exact .inr rfl
      | outcomeUnknown => cases evidence

theorem PostcheckRecorded.works
    (recorded : PostcheckRecorded codec owner verified now db checked run x text) (owned : Owned db)
    (known : (x.postchecked verified text).status = .completed ∨
      (x.postchecked verified text).status = .failed)
    (timely : regime.punctual → Follows codec db run now) : Works codec regime db checked := by
  have ended := postchecked_ended recorded.started text verified
  have sameRuns : checked.setupRuns = db.setupRuns := by rw [recorded.frame]
  refine works_of_action owned recorded.runMember recorded.member recorded.ofRun (by simp)
    (fun other _ met => of_decide_eq_true met) ended.same.runId sameRuns recorded.actions ?_
  intro there
  exact .single (.acted there recorded.running recorded.written
    (.settles recorded.started ended known fun punctual => ((timely punctual).2 x there).1))

/-- The postcheck's action is unknown with the others that were started. -/
theorem PostcheckRecorded.works_lost
    (recorded : PostcheckRecorded codec owner .unknown now db checked run x text) (owned : Owned db)
    (marked : markSetupRunOutcomeUnknownInTransaction codec checked owner.operationId.text now =
      .ok lost)
    (timely : regime.punctual → Follows codec db run now) : Works codec regime db lost := by
  obtain ⟨_, _, again, _, _, written, runs, actions, _⟩ := markOutcomeUnknown_ok marked
  rw [recorded.written] at written
  cases written
  have sameRuns : checked.setupRuns = db.setupRuns := by rw [recorded.frame]
  rw [sameRuns] at runs
  rw [recorded.actions, List.map_map] at actions
  refine works_of_lost owned recorded.runMember recorded.runId recorded.running runs actions ?_ ?_
    recorded.written timely
  · intro a _ other
    have notX : a ≠ x := fun same => other (same ▸ recorded.ofRun)
    simp only [Function.comp_apply, patch, notX, decide_false, Bool.false_eq_true, if_false]
    exact interruption_other (recorded.runId ▸ other)
  · intro a there
    have own := (mem_workOf.mp there).2.trans recorded.runId
    by_cases same : a = x
    · have made : (interruption owner.operationId.text text ∘
          patch (fun action => action = x) (·.postchecked .unknown text)) a =
          x.postchecked .unknown text := by
        rw [same]
        simp [patch, interruption, SetupActionRow.postchecked]
      rw [made, same]
      exact .ends recorded.started (postchecked_ended recorded.started text .unknown) rfl
    · simp only [Function.comp_apply, patch, same, decide_false, Bool.false_eq_true, if_false]
      exact interruption_interrupts own

/-! ## Leases of probes -/

/-- One lease is another with its state or its times changed. -/
structure SameHolder (old lease : ControlLeaseRow) : Prop where
  host : lease.hostIdentityRef = old.hostIdentityRef
  kind : lease.ownerKind = old.ownerKind
  operationId : lease.operationId = old.operationId

theorem SameHolder.refl (lease : ControlLeaseRow) : SameHolder lease lease := ⟨rfl, rfl, rfl⟩

theorem SameHolder.trans (first : SameHolder old middle)
    (second : SameHolder middle lease) : SameHolder old lease :=
  ⟨second.host.trans first.host, second.kind.trans first.kind,
    second.operationId.trans first.operationId⟩

theorem patch_holder (hit : ControlLeaseRow → Bool) (state : String) (lease : ControlLeaseRow) :
    SameHolder lease (patch hit (fun lease => { lease with leaseState := state }) lease) := by
  unfold patch
  split
  · exact ⟨rfl, rfl, rfl⟩
  · exact .refl lease

/-- Nothing but leases of Turns and probes has changed, and there is no new one. -/
structure NoNewLease (db after : Database) : Prop where
  controls : ∀ lease ∈ after.controlLeases.rows, ∃ old ∈ db.controlLeases.rows, SameHolder old lease
  frame : after = { db with controlLeases := after.controlLeases }

theorem deleteProbeLease_ok (ran : deleteProbeLease db hit = .ok after) : NoNewLease db after := by
  simp only [deleteProbeLease, except_bind_ok, orFail_ok] at ran
  obtain ⟨leases, deleted, made⟩ := ran
  cases made
  obtain ⟨_, _, _, rest⟩ := Table.exists_of_deleteOne deleted
  exact ⟨fun lease member => ⟨lease, ((rest lease).mp member).1, .refl lease⟩, rfl⟩

theorem retainProbeRecovery_ok (ran : retainProbeRecovery db kind probeRef = .ok after) :
    NoNewLease db after := by
  simp only [retainProbeRecovery, except_bind_ok, orFail_ok] at ran
  obtain ⟨leases, updated, made⟩ := ran
  cases made
  obtain ⟨_, rfl⟩ := Table.updateOne_eq_some.mp updated
  refine ⟨fun lease member => ?_, rfl⟩
  obtain ⟨old, there, rfl⟩ := List.mem_map.mp member
  exact ⟨old, there, patch_holder _ _ old⟩

theorem finishProbeFailure_ok
    (ran : finishProbeFailure db kind probeRef stored terminal = .ok after) :
    NoNewLease db after := by
  simp only [finishProbeFailure, except_bind_ok] at ran
  obtain ⟨_, _, ran⟩ := ran
  split at ran
  · exact deleteProbeLease_ok ran
  · exact deleteProbeLease_ok ran
  · exact retainProbeRecovery_ok ran

theorem finishNativeProbeSuccess_ok
    (ran : finishNativeProbeSuccess db probeRef stored = .ok after) : NoNewLease db after := by
  simp only [finishNativeProbeSuccess, except_bind_ok] at ran
  obtain ⟨_, _, ran⟩ := ran
  exact deleteProbeLease_ok ran

theorem beginReadinessProbe_ok
    (ran : beginReadinessProbe codec db kind binding probeRef owner now = .ok after) :
    ∃ host lease, hostIdentity db = .ok host ∧
      db.maintenanceLeases.lookup host.text = none ∧ lease.hostIdentityRef = host.text ∧
      after.controlLeases.rows = db.controlLeases.rows ++ [lease] ∧
      after = { db with controlLeases := after.controlLeases } := by
  simp only [beginReadinessProbe, insertProbeLease, except_bind_ok, ensure_ok, orFail_ok,
    formatTime_ok] at ran
  obtain ⟨host, known, probe, _, _, available, acquiredAt, _, _, _, leases, inserted, made⟩ := ran
  cases made
  exact ⟨host, _, known, ensureControlLeaseAvailable_ok available, rfl,
    (Table.insert_eq_some.mp inserted).2, rfl⟩

/-! ## Heartbeats -/

/-- A heartbeat of a control lease that is the owner's and active. -/
def controlBeat (owner : LeaseOwner) (acquiredAt heartbeatAt : String) :
    ControlLeaseRow → ControlLeaseRow :=
  patch (fun lease => lease.isOwnedBy owner acquiredAt && lease.leaseState = "active")
    (fun lease => { lease with heartbeatAt := heartbeatAt })

def maintenanceBeat (owner : LeaseOwner) (acquiredAt heartbeatAt : String) :
    MaintenanceLeaseRow → MaintenanceLeaseRow :=
  patch (fun lease => lease.ownedBy owner acquiredAt && lease.leaseState = "active")
    (fun lease => { lease with heartbeatAt := heartbeatAt })

theorem refreshLeaseHeartbeat_ok
    (ran : refreshLeaseHeartbeat codec db owner time = .ok (changed, after)) :
    ∃ heartbeatAt acquiredAt, codec.format time = some heartbeatAt ∧
      codec.format owner.acquiredAt = some acquiredAt ∧
      changed = countControlLeases db owner acquiredAt + countMaintenanceLeases db owner acquiredAt ∧
      after.controlLeases.rows =
        db.controlLeases.rows.map (controlBeat owner acquiredAt heartbeatAt) ∧
      after.maintenanceLeases.rows =
        db.maintenanceLeases.rows.map (maintenanceBeat owner acquiredAt heartbeatAt) ∧
      after = { db with
        controlLeases := after.controlLeases
        maintenanceLeases := after.maintenanceLeases } := by
  simp only [refreshLeaseHeartbeat, except_bind_ok, ensure_ok, formatTime_ok] at ran
  obtain ⟨heartbeatAt, beats, acquiredAt, acquired, _, _, made⟩ := ran
  cases made
  exact ⟨heartbeatAt, acquiredAt, beats, acquired, rfl, rfl, rfl, rfl⟩

end Satelle.SetupTransactions
