import Satelle.SetupWorks
import Satelle.StoreRows

/-! What the statements of the ledger do to its runs: an update moves the run it
names by a step of that run's machine and leaves every other run, and a run that is
begun stands as it was planned. The transactions made of them come after this. -/
namespace Satelle.SetupStatements
open Satelle.Core Lib Host SetupWorks Relation
open StoreRows (formatTime_ok)

def workOf (db : Database) (run : SetupRunRow) : Work :=
  ⟨run, db.setupActions.rows.filter (·.runId = run.runId)⟩

/-- The foreign key of the actions. -/
def Owned (db : Database) : Prop :=
  ∀ action ∈ db.setupActions.rows, ∃ run ∈ db.setupRuns.rows, run.runId = action.runId

/-- Every run of the later store has come from one of the earlier store, or from a
plan, by the steps of the machine. -/
structure Works (codec : TimeCodec) (regime : Regime) (before after : Database) : Prop where
  owned : Owned after
  runs : ∀ run ∈ after.setupRuns.rows, ∃ start,
    ((∃ old ∈ before.setupRuns.rows, start = workOf before old) ∨ Planned codec start) ∧
      ReflTransGen (WorkStep codec regime) start (workOf after run)

theorem works_same (owned : Owned before) (runs : after.setupRuns = before.setupRuns)
    (actions : after.setupActions = before.setupActions) : Works codec regime before after where
  owned := by
    unfold Owned
    rw [runs, actions]
    exact owned
  runs := by
    intro run member
    refine ⟨workOf before run, .inl ⟨run, runs ▸ member, rfl⟩, ?_⟩
    unfold workOf
    rw [actions]

theorem Works.trans (first : Works codec regime before middle)
    (second : Works codec regime middle after) : Works codec regime before after where
  owned := second.owned
  runs := by
    intro run member
    obtain ⟨start, origin, steps⟩ := second.runs run member
    rcases origin with ⟨old, there, rfl⟩ | planned
    · obtain ⟨earlier, origin, before⟩ := first.runs old there
      exact ⟨earlier, origin, before.trans steps⟩
    · exact ⟨start, .inr planned, steps⟩

/-- Every run is worked on where it stands. -/
theorem works_of_map (owned : Owned db)
    (runs : after.setupRuns.rows = db.setupRuns.rows.map runChange)
    (actions : after.setupActions.rows = db.setupActions.rows.map actionChange)
    (sameRun : ∀ run ∈ db.setupRuns.rows, (runChange run).runId = run.runId)
    (sameAction : ∀ action ∈ db.setupActions.rows, (actionChange action).runId = action.runId)
    (steps : ∀ run ∈ db.setupRuns.rows, ReflTransGen (WorkStep codec regime) (workOf db run)
      ⟨runChange run, (workOf db run).actions.map actionChange⟩) :
    Works codec regime db after where
  owned := by
    rw [Owned, actions, List.forall_mem_map]
    intro old there
    obtain ⟨run, present, names⟩ := owned old there
    refine ⟨runChange run, runs ▸ List.mem_map_of_mem present, ?_⟩
    rw [sameRun run present, names, sameAction old there]
  runs := by
    rw [runs, List.forall_mem_map]
    intro old there
    refine ⟨workOf db old, .inl ⟨old, there, rfl⟩, ?_⟩
    have filtered : (db.setupActions.rows.map actionChange).filter
        (·.runId = (runChange old).runId) = (workOf db old).actions.map actionChange := by
      rw [List.filter_map, workOf, sameRun old there]
      congr 1
      refine List.filter_congr fun action present => ?_
      simp [sameAction action present]
    unfold workOf
    rw [actions, filtered]
    exact steps old there

/-- Only one run is worked on. -/
theorem works_of_one (owned : Owned db)
    (member : run ∈ db.setupRuns.rows)
    (runs : after.setupRuns.rows = db.setupRuns.rows.map runChange)
    (actions : after.setupActions.rows = db.setupActions.rows.map actionChange)
    (sameRun : (runChange run).runId = run.runId)
    (sameAction : ∀ action ∈ db.setupActions.rows, (actionChange action).runId = action.runId)
    (otherRuns : ∀ other ∈ db.setupRuns.rows, other.runId ≠ run.runId → runChange other = other)
    (otherActions : ∀ action ∈ db.setupActions.rows, action.runId ≠ run.runId →
      actionChange action = action)
    (steps : ReflTransGen (WorkStep codec regime) (workOf db run)
      ⟨runChange run, (workOf db run).actions.map actionChange⟩) :
    Works codec regime db after := by
  have only : ∀ other ∈ db.setupRuns.rows, other.runId = run.runId → other = run :=
    fun other there same => Table.row_unique there member same
  refine works_of_map owned runs actions ?_ sameAction ?_
  · intro other there
    by_cases same : other.runId = run.runId
    · rw [only other there same, sameRun]
    · rw [otherRuns other there same]
  · intro other there
    by_cases same : other.runId = run.runId
    · rw [only other there same]
      exact steps
    · have kept : (workOf db other).actions.map actionChange = (workOf db other).actions := by
        have still : ∀ action ∈ (workOf db other).actions, actionChange action = id action := by
          intro action present
          obtain ⟨within, named⟩ := List.mem_filter.mp present
          refine otherActions action within ?_
          rw [of_decide_eq_true named]
          exact same
        rw [List.map_congr_left still, List.map_id]
      rw [otherRuns other there same, kept]
      exact .refl

/-! ## Statements -/

theorem updateSetupAction_ok (ran : updateSetupAction db hit change keeps = .ok after) :
    ∃ x ∈ db.setupActions.rows, hit x = true ∧
      (∀ other ∈ db.setupActions.rows, hit other = true → other = x) ∧
      after = { db with setupActions := db.setupActions.updateWhere hit change keeps } := by
  unfold updateSetupAction at ran
  simp only [except_bind_ok, orFail_ok] at ran
  obtain ⟨actions, updated, made⟩ := ran
  obtain ⟨one, rfl⟩ := Table.updateOne_eq_some.mp updated
  obtain ⟨x, member, hits, only⟩ := Table.exists_of_countP_one one
  cases made
  exact ⟨x, member, hits, only, rfl⟩

/-- The run that an update of its status has changed. -/
def runUpdate (runId expected status : String) (finishedAt : Option String) :
    SetupRunRow → SetupRunRow :=
  patch (fun run => run.runId = runId && run.status = expected)
    (fun run => { run with status := status, finishedAt := finishedAt })

theorem updateSetupRun_ok (ran : updateSetupRun db runId expected status finishedAt = .ok after) :
    ∃ run ∈ db.setupRuns.rows, run.runId = runId ∧ run.status = expected ∧
      after.setupRuns.rows = db.setupRuns.rows.map (runUpdate runId expected status finishedAt) ∧
      after = { db with setupRuns := after.setupRuns } := by
  unfold updateSetupRun at ran
  simp only [except_bind_ok, orFail_ok] at ran
  obtain ⟨runs, updated, made⟩ := ran
  obtain ⟨one, rfl⟩ := Table.updateOne_eq_some.mp updated
  obtain ⟨run, member, hit, _⟩ := Table.exists_of_countP_one one
  cases made
  simp only [Bool.and_eq_true, decide_eq_true_eq] at hit
  exact ⟨run, member, hit.1, hit.2, rfl, rfl⟩

theorem runUpdate_of (own : run.runId = runId) (status : run.status = expected) :
    runUpdate runId expected next finishedAt run =
      { run with status := next, finishedAt := finishedAt } := by
  simp [runUpdate, patch, own, status]

theorem runUpdate_runId :
    (runUpdate runId expected next finishedAt run).runId = run.runId := by
  unfold runUpdate patch
  split <;> rfl

theorem runUpdate_other (other : run.runId ≠ runId) :
    runUpdate runId expected next finishedAt run = run := by
  simp [runUpdate, patch, other]

theorem isRunning_iff : isRunning db runId = true ↔
    ∃ run ∈ db.setupRuns.rows, run.runId = runId ∧ run.status = "running" := by
  simp [isRunning, List.any_eq_true]

theorem mem_workOf : action ∈ (workOf db run).actions ↔
    action ∈ db.setupActions.rows ∧ action.runId = run.runId := by
  simp [workOf, List.mem_filter]

/-- One action of a run is moved on. -/
theorem works_of_action
    (owned : Owned db) (runMember : run ∈ db.setupRuns.rows) (member : x ∈ db.setupActions.rows)
    (own : x.runId = run.runId) (hits : hit x = true)
    (only : ∀ other ∈ db.setupActions.rows, hit other = true → other = x)
    (sameRun : (change x).runId = x.runId)
    (runs : after.setupRuns = db.setupRuns)
    (actions : after.setupActions.rows = db.setupActions.rows.map (patch hit change))
    (steps : x ∈ (workOf db run).actions → ReflTransGen (WorkStep codec regime) (workOf db run)
      ⟨run, replace x (change x) (workOf db run).actions⟩) :
    Works codec regime db after := by
  have spared : ∀ action ∈ db.setupActions.rows, action ≠ x → patch hit change action = action := by
    intro action there other
    unfold patch
    rw [if_neg fun met => other (only action there met)]
  have sameRuns : after.setupRuns.rows = db.setupRuns.rows.map id := by rw [runs, List.map_id]
  refine works_of_one owned runMember sameRuns actions rfl ?_ (fun _ _ _ => rfl) ?_ ?_
  · intro action there
    by_cases same : action = x
    · rw [same]
      unfold patch
      rw [if_pos hits, sameRun]
    · rw [spared action there same]
  · intro action there other
    exact spared action there fun same => other (same ▸ own)
  · rw [map_patch_one hits fun other there => only other (mem_workOf.mp there).1]
    exact steps (mem_workOf.mpr ⟨member, own⟩)

/-! ## Checks -/

theorem requireNotBefore_ok (ran : requireNotBefore codec time text = .ok done) :
    NotBefore codec time text := by
  simp only [requireNotBefore, parseTime, except_bind_ok, orFail_ok, ensure_ok] at ran
  obtain ⟨boundary, parsed, before⟩ := ran
  intro other also
  rw [parsed] at also
  exact Option.some.inj also ▸ before

theorem requireNotBeforeFinish_ok (ran : requireNotBeforeFinish codec time action = .ok done)
    (finished : action.status.hasFinished = true) : NotBeforeFinish codec time action := by
  unfold requireNotBeforeFinish at ran
  rw [if_pos finished] at ran
  simp only [except_bind_ok, orFail_ok] at ran
  obtain ⟨stored, found, checked⟩ := ran
  intro text there
  rw [found] at there
  obtain rfl := Option.some.inj there
  exact requireNotBefore_ok checked

theorem loadRunStartedAt_ok (member : run ∈ db.setupRuns.rows) (own : run.runId = runId)
    (ran : loadRunStartedAt db runId = .ok text) : text = run.startedAt := by
  simp only [loadRunStartedAt, except_bind_ok, orFail_ok] at ran
  obtain ⟨found, there, made⟩ := ran
  have same : db.setupRuns.lookup runId = some run := Table.lookup_eq_some.mpr ⟨member, own⟩
  rw [same] at there
  cases there
  cases made
  rfl

theorem mem_actionsOf : action ∈ actionsOf db runId ↔
    action ∈ db.setupActions.rows ∧ action.runId = runId := by
  simp [actionsOf, List.mem_filter]

theorem requireRunAndPredecessorTimes_ok (member : run ∈ db.setupRuns.rows)
    (present : x ∈ db.setupActions.rows) (own : x.runId = run.runId)
    (ran : requireRunAndPredecessorTimes codec db run.runId x.actionId time = .ok done) :
    NotBefore codec time run.startedAt ∧
      ∀ action ∈ (workOf db run).actions, action.actionOrder < x.actionOrder →
        action.status.hasFinished = true → NotBeforeFinish codec time action := by
  simp only [requireRunAndPredecessorTimes, except_bind_ok, orFail_ok] at ran
  obtain ⟨text, loaded, _, began, current, found, predecessors⟩ := ran
  have isX : db.setupActions.lookup (run.runId, x.actionId) = some x :=
    Table.lookup_eq_some.mpr ⟨present, by simp [SetupActionRow.key, own]⟩
  rw [isX] at found
  cases found
  refine ⟨loadRunStartedAt_ok member rfl loaded ▸ requireNotBefore_ok began, ?_⟩
  intro action there less finished
  refine requireNotBeforeFinish_ok (forM_ok.mp predecessors action ?_) finished
  exact List.mem_filter.mpr ⟨mem_actionsOf.mpr (mem_workOf.mp there), by simpa using less⟩

theorem validatedPrivateReference_ok (ran : validatedPrivateReference value = .ok reference) :
    reference.text = value := by
  unfold validatedPrivateReference at ran
  split at ran
  · cases ran
    rfl
  · cases ran

/-! ## Actions -/

/-- Actions are moved on, and nothing else changes. -/
structure Moves (codec : TimeCodec) (db after : Database) : Prop where
  frame : after = { db with setupActions := after.setupActions }
  works : ∀ regime, Owned db → Works codec regime db after

theorem Moves.none (codec : TimeCodec) (db : Database) : Moves codec db db :=
  ⟨rfl, fun _ owned => works_same owned rfl rfl⟩

/-- An action that an update for running runs hits, with its run. -/
theorem running_owner {x : SetupActionRow}
    (hits : (x.is runId actionId && x.status = status && isRunning db runId) = true) :
    x.runId = runId ∧ x.actionId = actionId ∧ x.status = status ∧
      ∃ run ∈ db.setupRuns.rows, x.runId = run.runId ∧ run.status = "running" := by
  simp only [SetupActionRow.is, Bool.and_eq_true, decide_eq_true_eq] at hits
  obtain ⟨⟨⟨own, named⟩, same⟩, running⟩ := hits
  obtain ⟨run, member, names, status⟩ := isRunning_iff.mp running
  exact ⟨own, named, same, run, member, own.trans names.symm, status⟩

theorem startSetupAction_moves
    (ran : startSetupAction codec db owner actionId startedAt = .ok after) :
    Moves codec db after := by
  simp only [startSetupAction, except_bind_ok, orFail_ok] at ran
  obtain ⟨id, _, _, _, existing, found, ran⟩ := ran
  split at ran
  · cases ran
    exact .none codec db
  · simp only [except_bind_ok, formatTime_ok] at ran
    obtain ⟨_, times, text, written, ran⟩ := ran
    obtain ⟨x, member, hits, only, rfl⟩ := updateSetupAction_ok ran
    refine ⟨rfl, fun regime owned => ?_⟩
    obtain ⟨hit, ready⟩ := Bool.and_eq_true_iff.mp hits
    obtain ⟨own, named, planned, run, runMember, ofRun, running⟩ := running_owner hit
    rw [← own, ← named, ofRun] at times
    obtain ⟨began, before⟩ := requireRunAndPredecessorTimes_ok runMember member ofRun times
    refine works_of_action owned runMember member ofRun hits only rfl rfl rfl ?_
    intro there
    have ordered : ∀ a ∈ (workOf db run).actions, a.actionOrder < x.actionOrder →
        a.status = .completed ∨ a.status = .skipped := by
      intro a present less
      obtain ⟨within, same⟩ := mem_workOf.mp present
      simpa [same, ← ofRun, own, less] using List.all_eq_true.mp ready a within
    refine .single (.acted there running written (.starts planned ordered fun _ => ⟨began, ?_⟩))
    intro a present less
    refine before a present less ?_
    rcases ordered a present less with status | status <;> rw [status] <;> rfl

theorem hasFinished_of_ne {status : SetupActionStatus} (planned : status ≠ .planned)
    (started : status ≠ .started) : status.hasFinished = true := by
  cases status <;> simp_all [SetupActionStatus.hasFinished]

theorem transitionStartedAction_moves
    (ran : transitionStartedAction codec db owner actionId outcome finishedAt = .ok after) :
    Moves codec db after := by
  simp only [transitionStartedAction, except_bind_ok, orFail_ok] at ran
  obtain ⟨id, _, _, _, existing, found, ran⟩ := ran
  rcases ite_eq_iff.mp ran with ⟨_, ran⟩ | ⟨_, ran⟩
  · cases ran
    exact .none codec db
  · simp only [except_bind_ok, formatTime_ok] at ran
    obtain ⟨_, times, text, written, ran⟩ := ran
    obtain ⟨x, member, hits, only, rfl⟩ := updateSetupAction_ok ran
    refine ⟨rfl, fun regime owned => ?_⟩
    obtain ⟨own, named, started, run, runMember, ofRun, running⟩ := running_owner hits
    rw [← own, ← named] at times
    obtain ⟨ended, known⟩ : Ended text x (outcome.record text x) ∧
        ((outcome.record text x).status = .completed ∨
          (outcome.record text x).status = .failed) := by
      have check : Checked x → Checked (outcome.record text x) := by
        intro checked
        simp only [Checked, started] at checked
        cases outcome <;> simp [Checked, StartedActionOutcome.record, checked]
      cases outcome with
      | completed => exact ⟨⟨⟨rfl, rfl, rfl, rfl⟩, rfl, rfl, check⟩, .inl rfl⟩
      | failed => exact ⟨⟨⟨rfl, rfl, rfl, rfl⟩, rfl, rfl, check⟩, .inr rfl⟩
    refine works_of_action owned runMember member ofRun hits only ended.same.runId rfl rfl ?_
    intro there
    refine .single (.acted there running written (.settles started ended known fun _ => ?_))
    simp only [requireStartedActionTime, except_bind_ok, orFail_ok, ensure_ok] at times
    obtain ⟨current, found, _, _, begun, stored, checked⟩ := times
    cases (Table.lookup_eq_some.mpr ⟨member, rfl⟩).symm.trans found
    intro other there
    cases stored.symm.trans there
    exact requireNotBefore_ok checked

theorem failSetupAction_moves
    (ran : failSetupAction codec db owner actionId errorCode exitStatus recoveryHint failedAt =
      .ok after) : Moves codec db after := by
  simp only [failSetupAction, except_bind_ok] at ran
  obtain ⟨_, _, _, _, ran⟩ := ran
  exact transitionStartedAction_moves ran

theorem skipSetupAction_moves
    (ran : skipSetupAction codec db owner actionId reason skippedAt = .ok after) :
    Moves codec db after := by
  simp only [skipSetupAction, except_bind_ok, formatTime_ok] at ran
  obtain ⟨id, _, _, _, _, times, text, written, ran⟩ := ran
  obtain ⟨x, member, hits, only, rfl⟩ := updateSetupAction_ok ran
  refine ⟨rfl, fun regime owned => ?_⟩
  obtain ⟨hit, ready⟩ := Bool.and_eq_true_iff.mp hits
  obtain ⟨own, named, planned, run, runMember, ofRun, running⟩ := running_owner hit
  rw [← own, ← named, ofRun] at times
  obtain ⟨began, before⟩ := requireRunAndPredecessorTimes_ok runMember member ofRun times
  refine works_of_action owned runMember member ofRun hits only rfl rfl rfl ?_
  intro there
  have ordered : ∀ a ∈ (workOf db run).actions, a.actionOrder < x.actionOrder →
      a.status ≠ .planned ∧ a.status ≠ .started := by
    intro a present less
    obtain ⟨within, same⟩ := mem_workOf.mp present
    simpa [same, ← ofRun, own, less] using List.all_eq_true.mp ready a within
  refine .single (.acted there running written (.skips planned ordered ⟨began, ?_⟩))
  intro a present less
  exact before a present less
    (hasFinished_of_ne (ordered a present less).1 (ordered a present less).2)

/-! ## Ends of a run -/

/-- What the sums say of the actions. -/
theorem tallySetupActions_ok (ran : tallySetupActions db runId = .ok tally) :
    (tally.pending = 0 ↔ ∀ a ∈ db.setupActions.rows, a.runId = runId →
      a.status ≠ .planned ∧ a.status ≠ .started) ∧
    (tally.unknown = 0 ↔ ∀ a ∈ db.setupActions.rows, a.runId = runId →
      a.status ≠ .outcomeUnknown) := by
  unfold tallySetupActions at ran
  dsimp only at ran
  split at ran
  · cases ran
  · cases ran
    constructor <;> simp [List.countP_eq_zero, List.mem_filter]

theorem tally_outcome (tally : SetupActionTally) : tally.outcome = .completed ∨
    tally.outcome = .failed ∨ tally.outcome = .partialFailure := by
  unfold SetupActionTally.outcome
  split
  · exact .inl rfl
  · split
    · exact .inr (.inl rfl)
    · exact .inr (.inr rfl)

/-- The run that is finished, with the status its actions give it. -/
theorem finishSetupRun_ok
    (ran : finishSetupRunInTransaction codec db runId time = .ok (status, after)) :
    ∃ run ∈ db.setupRuns.rows, ∃ text, run.runId = runId ∧ run.status = "running" ∧
      (∀ a ∈ (workOf db run).actions, a.status ≠ .planned ∧ a.status ≠ .started) ∧
      (if ∃ a ∈ (workOf db run).actions, a.status = .outcomeUnknown then status = .outcomeUnknown
        else status = .completed ∨ status = .failed ∨ status = .partialFailure) ∧
      codec.format time = some text ∧ NotBefore codec time run.startedAt ∧
      (∀ a ∈ (workOf db run).actions, NotBeforeFinish codec time a) ∧
      after.setupRuns.rows =
        db.setupRuns.rows.map (runUpdate runId "running" status.asStr (some text)) ∧
      after = { db with setupRuns := after.setupRuns } := by
  simp only [finishSetupRunInTransaction, except_bind_ok, formatTime_ok, ensure_ok] at ran
  obtain ⟨_, _, _, times, tally, tallied, _, pending, text, written, middle, updated, made⟩ := ran
  cases made
  obtain ⟨run, member, own, running, rows, same⟩ := updateSetupRun_ok updated
  obtain ⟨none, known⟩ := tallySetupActions_ok tallied
  rw [← own] at times
  simp only [requireRunFinishTime, except_bind_ok] at times
  obtain ⟨begun, loaded, _, started, each⟩ := times
  have began := loadRunStartedAt_ok member rfl loaded ▸ requireNotBefore_ok started
  have past : ∀ a ∈ (workOf db run).actions, a.status ≠ .planned ∧ a.status ≠ .started := by
    intro a there
    obtain ⟨within, named⟩ := mem_workOf.mp there
    exact none.mp pending a within (named.trans own)
  refine ⟨run, member, text, own, running, past, ?_, written, began, ?_, rows, same⟩
  · by_cases unknown : tally.unknown = 0
    · rw [if_neg ?_, if_neg (not_not.mpr unknown)]
      · exact tally_outcome tally
      · rintro ⟨a, there, status⟩
        obtain ⟨within, named⟩ := mem_workOf.mp there
        exact known.mp unknown a within (named.trans own) status
    · rw [if_pos ?_, if_pos unknown]
      rw [known] at unknown
      push Not at unknown
      obtain ⟨a, within, named, status⟩ := unknown
      exact ⟨a, mem_workOf.mpr ⟨within, named.trans own.symm⟩, status⟩
  · intro a there
    exact requireNotBeforeFinish_ok (forM_ok.mp each a there)
      (hasFinished_of_ne (past a there).1 (past a there).2)

theorem finishSetupRun_works (owned : Owned db)
    (ran : finishSetupRunInTransaction codec db runId time = .ok (status, after)) :
    Works codec regime db after := by
  obtain ⟨run, member, text, own, running, past, tallied, written, began, finishes, rows, same⟩ :=
    finishSetupRun_ok ran
  rw [same]
  refine works_of_one owned member rows (List.map_id _).symm runUpdate_runId (fun _ _ => rfl)
    (fun other _ ne => runUpdate_other (own ▸ ne)) (fun _ _ _ => rfl) ?_
  rw [runUpdate_of own running, List.map_id]
  exact .single (.finished running past tallied written ⟨began, finishes⟩)

theorem releaseActiveMaintenance_ok (ran : releaseActiveMaintenance codec db owner = .ok after) :
    ∃ lease ∈ db.maintenanceLeases.rows, (∃ text, lease.ownedBy owner text = true) ∧
      (∀ other, other ∈ after.maintenanceLeases.rows ↔
        other ∈ db.maintenanceLeases.rows ∧ other ≠ lease) ∧
      after = { db with maintenanceLeases := after.maintenanceLeases } := by
  simp only [releaseActiveMaintenance, except_bind_ok, orFail_ok] at ran
  obtain ⟨text, _, leases, deleted, made⟩ := ran
  cases made
  obtain ⟨lease, member, hit, rest⟩ := Table.exists_of_deleteOne deleted
  simp only [Bool.and_eq_true] at hit
  exact ⟨lease, member, ⟨text, hit.1.1⟩, rest, rfl⟩

/-! ## Interruption -/

/-- A time that is before nothing a run records. -/
def Follows (codec : TimeCodec) (db : Database) (run : SetupRunRow) (time : OffsetDateTime) :
    Prop :=
  NotBefore codec time run.startedAt ∧ ∀ a ∈ (workOf db run).actions,
    (∀ stored ∈ a.startedAt, NotBefore codec time stored) ∧ NotBeforeFinish codec time a

theorem interrupted_ended (started : x.status = .started) (text : String) :
    Ended text x (x.interrupted text) := by
  refine ⟨⟨rfl, rfl, rfl, rfl⟩, rfl, rfl, ?_⟩
  intro checked
  simp only [Checked, started] at checked
  simp [Checked, SetupActionRow.interrupted, checked]

/-- What an interruption makes of the actions of a run. -/
def interruption (runId text : String) : SetupActionRow → SetupActionRow :=
  patch (fun action => action.runId = runId && action.status = .started) (·.interrupted text)

theorem markOutcomeUnknown_ok
    (ran : markSetupRunOutcomeUnknownInTransaction codec db runId time = .ok after) :
    ∃ run ∈ db.setupRuns.rows, ∃ text, run.runId = runId ∧ run.status = "running" ∧
      codec.format time = some text ∧
      after.setupRuns.rows =
        db.setupRuns.rows.map (runUpdate runId "running" "outcome_unknown" (some text)) ∧
      after.setupActions.rows = db.setupActions.rows.map (interruption runId text) ∧
      after = { db with setupRuns := after.setupRuns, setupActions := after.setupActions } := by
  simp only [markSetupRunOutcomeUnknownInTransaction, except_bind_ok, formatTime_ok] at ran
  obtain ⟨text, written, updated⟩ := ran
  obtain ⟨run, member, own, running, rows, same⟩ := updateSetupRun_ok updated
  refine ⟨run, member, text, own, running, written, rows, ?_, ?_⟩
  · rw [same]
    rfl
  · rw [same]

theorem markOutcomeUnknown_frame
    (ran : markSetupRunOutcomeUnknownInTransaction codec db runId time = .ok after) :
    after = { db with setupRuns := after.setupRuns, setupActions := after.setupActions } := by
  obtain ⟨_, _, _, _, _, _, _, _, frame⟩ := markOutcomeUnknown_ok ran
  exact frame

/-- A run is lost, with its started actions. -/
theorem works_of_lost (owned : Owned db)
    (member : run ∈ db.setupRuns.rows) (own : run.runId = runId) (running : run.status = "running")
    (runs : after.setupRuns.rows =
      db.setupRuns.rows.map (runUpdate runId "running" "outcome_unknown" (some text)))
    (actions : after.setupActions.rows = db.setupActions.rows.map change)
    (others : ∀ a ∈ db.setupActions.rows, a.runId ≠ run.runId → change a = a)
    (interrupts : ∀ a ∈ (workOf db run).actions, Interrupts text a (change a))
    (written : codec.format time = some text) (timely : regime.punctual → Follows codec db run time) :
    Works codec regime db after := by
  refine works_of_one owned member runs actions runUpdate_runId ?_
    (fun other _ ne => runUpdate_other (own ▸ ne)) others ?_
  · intro a there
    by_cases same : a.runId = run.runId
    · exact (interrupts a (mem_workOf.mpr ⟨there, same⟩)).survives.runId
    · rw [others a there same]
  · rw [runUpdate_of own running]
    exact .single (.lost running interrupts written timely)

theorem interruption_interrupts (own : a.runId = runId) :
    Interrupts text a (interruption runId text a) := by
  by_cases started : a.status = .started
  · have made : interruption runId text a = a.interrupted text := by
      simp [interruption, patch, own, started]
    exact .ends started (made ▸ interrupted_ended started text) (made ▸ rfl)
  · exact .stays started (by simp [interruption, patch, started])

theorem interruption_other (other : a.runId ≠ runId) : interruption runId text a = a := by
  simp [interruption, patch, other]

/-! ## Beginning a run -/

theorem insertSetupActions_ok {rows : List SetupActionRow}
    (ran : rows.foldlM insertSetupAction db = .ok after) :
    after.setupActions.rows = db.setupActions.rows ++ rows ∧
      after = { db with setupActions := after.setupActions } := by
  induction rows generalizing db with
  | nil =>
    cases ran
    exact ⟨(List.append_nil _).symm, rfl⟩
  | cons row rest ih =>
    rw [List.foldlM_cons] at ran
    obtain ⟨middle, first, later⟩ := except_bind_ok.mp ran
    simp only [insertSetupAction, except_bind_ok, ensure_ok, orFail_ok] at first
    obtain ⟨_, _, actions, inserted, made⟩ := first
    cases made
    obtain ⟨appended, same⟩ := ih later
    refine ⟨?_, same⟩
    rw [appended, (Table.insert_eq_some.mp inserted).2, List.append_assoc]
    rfl

theorem ensureNoControlLease_ok (ran : ensureNoControlLease db host = .ok done) :
    ∀ lease ∈ db.controlLeases.rows, lease.hostIdentityRef ≠ host.text := by
  unfold ensureNoControlLease at ran
  split at ran
  · cases ran
  · rename_i absent
    intro lease member same
    rw [List.head?_eq_none_iff] at absent
    have empty := congrArg List.length absent
    rw [List.length_insertionSort, List.length_map, List.length_nil, List.length_eq_zero_iff,
      List.filter_eq_nil_iff] at empty
    exact empty lease member (by simpa using same)

/-- A run that has been begun, with its actions and its lease. -/
structure Begun (codec : TimeCodec) (plan : SetupRunPlan) (owner : LeaseOwner)
    (host : HostIdentityRef) (db after : Database) (run : SetupRunRow)
    (lease : MaintenanceLeaseRow) : Prop where
  unmaintained : ∀ lease ∈ db.maintenanceLeases.rows, lease.hostIdentityRef ≠ host.text
  idle : ∀ lease ∈ db.controlLeases.rows, lease.hostIdentityRef ≠ host.text
  fresh : ∀ other ∈ db.setupRuns.rows, other.runId ≠ run.runId
  runId : run.runId = plan.runId.text
  running : run.status = "running"
  unfinished : run.finishedAt = none
  startedAt : codec.format plan.startedAt = some run.startedAt
  runs : after.setupRuns.rows = db.setupRuns.rows ++ [run]
  actions : after.setupActions.rows = db.setupActions.rows ++ plan.rows
  onHost : lease.hostIdentityRef = host.text
  operationId : lease.operationId = owner.operationId.text
  owned : ∃ acquiredAt, codec.format owner.acquiredAt = some acquiredAt ∧
    lease.ownedBy owner acquiredAt = true
  active : lease.leaseState = "active"
  leases : after.maintenanceLeases.rows = db.maintenanceLeases.rows ++ [lease]
  frame : after = { db with
    setupRuns := after.setupRuns
    setupActions := after.setupActions
    maintenanceLeases := after.maintenanceLeases }

theorem beginSetupRunInTransaction_ok
    (ran : beginSetupRunInTransaction codec db version plan owner host = .ok after) :
    ∃ run lease, Begun codec plan owner host db after run lease := by
  simp only [beginSetupRunInTransaction, insertSetupRun, insertMaintenanceLease, except_bind_ok,
    ensure_ok, orFail_ok, formatTime_ok] at ran
  obtain ⟨_, _, _, unmaintained, _, _, _, idle, _, ⟨startedAt, written, runs, inserted, made⟩,
    middle, folded, acquiredAt, acquired, _, _, leases, leased, final⟩ := ran
  cases made
  cases final
  obtain ⟨appended, same⟩ := insertSetupActions_ok folded
  obtain ⟨fresh, runRows⟩ := Table.insert_eq_some.mp inserted
  have kept : middle.maintenanceLeases = db.maintenanceLeases := by rw [same]
  refine ⟨_, _, {
    unmaintained := by
      unfold ensureNoMaintenance at unmaintained
      split at unmaintained
      · cases unmaintained
      · exact Table.lookup_eq_none.mp ‹_›
    idle := ensureNoControlLease_ok idle
    fresh := fun other member equal => fresh (equal ▸ List.mem_map_of_mem member)
    runId := rfl
    running := rfl
    unfinished := rfl
    startedAt := written
    runs := ?_
    actions := appended
    onHost := rfl
    operationId := rfl
    owned := ⟨acquiredAt, acquired, by simp [MaintenanceLeaseRow.ownedBy, LeaseOwner.owns]⟩
    active := rfl
    leases := kept ▸ (Table.insert_eq_some.mp leased).2
    frame := ?_ }⟩
  · rw [same]
    exact runRows
  · rw [same]

theorem plan_rows (member : a ∈ SetupRunPlan.rows plan) : a.runId = plan.runId.text ∧
    a.status = .planned ∧ Checked a := by
  obtain ⟨index, bound, rfl⟩ := List.mem_mapIdx.mp member
  exact ⟨rfl, rfl, by simp [Checked, SetupActionPlan.row]⟩

theorem plan_distinct (plan : SetupRunPlan) : Distinct plan.rows := by
  intro a first b second same
  obtain ⟨index, bound, rfl⟩ := List.mem_mapIdx.mp first
  obtain ⟨other, also, rfl⟩ := List.mem_mapIdx.mp second
  obtain rfl : index = other := same
  rfl

section
variable (begun : Begun codec plan owner host db after run lease)
include begun

/-- The actions of a new run are those of its plan. -/
theorem Begun.workOf (owned : Owned db) :
    workOf after run = ⟨run, plan.rows⟩ := by
  unfold SetupStatements.workOf
  rw [begun.actions, List.filter_append]
  have none : db.setupActions.rows.filter (·.runId = run.runId) = [] := by
    rw [List.filter_eq_nil_iff]
    intro a member same
    obtain ⟨other, there, names⟩ := owned a member
    exact begun.fresh other there (names.trans (of_decide_eq_true same))
  have all : plan.rows.filter (·.runId = run.runId) = plan.rows := by
    rw [List.filter_eq_self]
    intro a member
    simp [(plan_rows member).1, begun.runId]
  rw [none, all, List.nil_append]

theorem Begun.planned :
    Planned codec ⟨run, plan.rows⟩ where
  running := begun.running
  unfinished := begun.unfinished
  planned := fun _ member => (plan_rows member).2
  distinct := plan_distinct plan
  readable := by
    rw [codec.roundTrip _ _ begun.startedAt]
    rfl

theorem Begun.works (owned : Owned db) :
    Works codec regime db after where
  owned := by
    intro a member
    rw [begun.actions] at member
    rw [begun.runs]
    rcases List.mem_append.mp member with old | new
    · obtain ⟨other, there, names⟩ := owned a old
      exact ⟨other, List.mem_append_left _ there, names⟩
    · exact ⟨run, by simp, begun.runId.trans (plan_rows new).1.symm⟩
  runs := by
    intro other member
    rw [begun.runs] at member
    rcases List.mem_append.mp member with old | new
    · refine ⟨SetupStatements.workOf db other, .inl ⟨other, old, rfl⟩, ?_⟩
      have none : plan.rows.filter (·.runId = other.runId) = [] := by
        rw [List.filter_eq_nil_iff]
        intro a member same
        refine begun.fresh other old ?_
        rw [begun.runId, ← (plan_rows member).1]
        exact (of_decide_eq_true same).symm
      unfold SetupStatements.workOf
      rw [begun.actions, List.filter_append, none, List.append_nil]
    · obtain rfl := List.mem_singleton.mp new
      refine ⟨_, .inr begun.planned, ?_⟩
      rw [begun.workOf owned]

end

end Satelle.SetupStatements
