import Satelle.MaintenanceActs

/-! The store works on its setup runs by the steps of their machine, whatever call it
serves. What holds of a run when it is planned, and is kept by every step, holds of
every run of every store. -/
namespace Satelle.SetupRefinement
open Satelle.Core Lib Host SetupWorks SetupStatements SetupTransactions Relation StoreChanges
open MaintenanceActs

theorem pruned_works (owned : Owned db)
    (pruned : LedgerPruned db after.setupRuns after.setupActions) : Works codec regime db after := by
  obtain ⟨gone, runs, actions, _⟩ := pruned
  constructor
  · intro a member
    rw [actions] at member
    obtain ⟨there, spared⟩ := List.mem_filter.mp member
    obtain ⟨run, present, names⟩ := owned a there
    refine ⟨run, ?_, names⟩
    rw [runs]
    exact List.mem_filter.mpr ⟨present, by rw [names]; exact spared⟩
  · intro run member
    rw [runs] at member
    obtain ⟨there, spared⟩ := List.mem_filter.mp member
    refine ⟨workOf db run, .inl ⟨run, there, rfl⟩, ?_⟩
    have same : workOf after run = workOf db run := by
      unfold workOf
      rw [actions, List.filter_filter]
      congr 1
      refine List.filter_congr fun a _ => ?_
      by_cases own : a.runId = run.runId
      · simp [own, spared]
      · simp [own]
    rw [same]

/-! ## Every call -/

/-- The times that the code writes without a check are not before what the run
records, and a reconciliation's subject is the run as it is stored. -/
def Punctual (codec : TimeCodec) (db : Database) : MaintenanceCall → Prop
  | .beginBootstrapMaintenance _ plan owner => plan.startedAt ≤ owner.acquiredAt
  | .completeBootstrapMaintenance owner time | .retainLeaseRecovery owner time
  | .finishMaintenancePostcheck owner _ _ _ _ time =>
    ∀ run ∈ db.setupRuns.rows, run.runId = owner.operationId.text → Follows codec db run time
  | .adoptRecoveryMaintenance operationId owner =>
    ∀ run ∈ db.setupRuns.rows, run.runId = operationId → Follows codec db run owner.acquiredAt
  | .reconcileMaintenance subject _ _ =>
    loadSetupRun codec db subject.owner.operationId.text = .ok (some subject.run)
  | _ => True

/-- No run with a failed action is adopted. -/
def Careful (db : Database) : MaintenanceCall → Prop
  | .adoptRecoveryMaintenance operationId _ =>
    ∀ action ∈ db.setupActions.rows, action.runId = operationId → action.status ≠ .failed
  | _ => True

/-- A call that keeps to the regime. -/
def Regular (codec : TimeCodec) (regime : Regime) (db : Database) (call : MaintenanceCall) : Prop :=
  (regime.punctual → Punctual codec db call) ∧ (regime.careful → Careful db call)

/-- What a call has committed: an act, which works on the runs by steps of their
machine. -/
structure Acted (codec : TimeCodec) (db : Database) (call : MaintenanceCall)
    (reply : MaintenanceReply) (after : Database) : Prop where
  act : Act codec db reply after
  works : ∀ regime, Owned db → Regular codec regime db call → Works codec regime db after

/-- A call has failed and left the store, or has committed an act. -/
def Acts (codec : TimeCodec) (db : Database) (call : MaintenanceCall)
    (served : Except StorageError MaintenanceReply × Database) : Prop :=
  (∃ e, served = (.error e, db)) ∨
    ∃ reply after, served = (.ok reply, after) ∧ Acted codec db call reply after

theorem acts_commitWith
    (committed : ∀ {after}, result = .ok after → Acted codec db call reply after) :
    Acts codec db call (commitWith db reply result) := by
  cases result with
  | error e => exact .inl ⟨e, rfl⟩
  | ok after => exact .inr ⟨reply, after, rfl, committed rfl⟩

theorem acts_transact {make : α → MaintenanceReply}
    (committed : ∀ {value after}, result = .ok (value, after) →
      Acted codec db call (make value) after) : Acts codec db call (transact db make result) := by
  cases result with
  | error e => exact .inl ⟨e, rfl⟩
  | ok result => exact .inr ⟨make result.1, result.2, rfl, committed rfl⟩

theorem finished_works (works : Works codec regime db middle)
    (finished : finishSetupRunInTransaction codec middle runId time = .ok (status, ended))
    (released : releaseActiveMaintenance codec ended owner = .ok after) :
    Works codec regime db after := by
  have ends : Works codec regime middle ended := finishSetupRun_works works.owned finished
  obtain ⟨_, _, _, _, same⟩ := releaseActiveMaintenance_ok released
  refine (works.trans ends).trans ?_
  rw [same]
  exact works_same ends.owned rfl rfl

theorem finishMaintenancePostcheck_acted
    (ran : finishMaintenancePostcheck codec db owner probeRef actionId verified stored now =
      .ok (reply, after)) :
    Acted codec db (.finishMaintenancePostcheck owner probeRef actionId verified stored now)
      (.ended reply) after := by
  obtain ⟨host, acquiredAt, probe, checked, run, x, text, _, acquired, _, recorded, outcome⟩ :=
    finishMaintenancePostcheck_ok ran
  have follows : ∀ {regime}, Regular codec regime db
      (.finishMaintenancePostcheck owner probeRef actionId verified stored now) →
      regime.punctual → Follows codec db run now :=
    fun regular punctual => regular.1 punctual run recorded.runMember recorded.runId
  rcases outcome with ⟨_, rfl, lost, marked, controls, leases, rfl⟩ |
    ⟨status, ended, control, lease, rfl, known, settled⟩
  · refine ⟨.abandoned acquired recorded.frame (.inl ⟨now, marked⟩) leases (.inl controls), ?_⟩
    intro regime owned regular
    have works : Works codec regime db lost := recorded.works_lost owned marked (follows regular)
    exact works.trans (handedOver_works works.owned)
  · refine ⟨.settled (fun owned => recorded.works owned known False.elim) recorded.frame settled, ?_⟩
    intro regime owned regular
    have works : Works codec regime db checked := recorded.works owned known (follows regular)
    have ends : Works codec regime checked ended := finishSetupRun_works works.owned settled.finished
    refine (works.trans ends).trans ?_
    rw [settled.frame]
    exact works_same ends.owned rfl rfl

theorem moves_acted (moves : Moves codec db after) : Acted codec db call .done after :=
  ⟨.moved moves.frame, fun regime owned _ => moves.works regime owned⟩

theorem noNewLease_acted (ended : NoNewLease db after) : Acted codec db call .done after := by
  refine ⟨.probeEnded ended, fun regime owned _ => ?_⟩
  rw [ended.frame]
  exact works_same owned rfl rfl

/-- Calls on Sessions and Turns, and restarts. -/
def isStoreCall : MaintenanceCall → Bool
  | .store _ | .initializeRestartRecovery _ _ => true
  | _ => false

theorem serve_acts (codec : TimeCodec) (db : Database) {call : MaintenanceCall}
    (maintains : isStoreCall call = false) :
    Acts codec db call (serveMaintenance codec db call) := by
  cases call with
  | store | initializeRestartRecovery => cases maintains
  | beginSetupRun version plan owner =>
    refine acts_commitWith fun ran => ?_
    obtain ⟨host, run, lease, known, named, begun⟩ := beginSetupRun_ok ran
    exact ⟨.begun known named begun rfl, fun _ owned _ => begun.works owned⟩
  | beginBootstrapMaintenance version plan owner =>
    refine acts_commitWith fun ran => ?_
    obtain ⟨host, middle, run, lease, known, named, begun, frame, started⟩ :=
      beginBootstrapMaintenance_ok ran
    refine ⟨.begun known named begun frame, fun regime owned regular => ?_⟩
    have works : Works codec regime db middle := begun.works owned
    exact works.trans (started regime owned regular.1)
  | startSetupAction =>
    exact acts_commitWith fun ran => moves_acted (startSetupAction_moves ran)
  | completeSetupAction =>
    exact acts_commitWith fun ran => moves_acted (transitionStartedAction_moves ran)
  | failSetupAction =>
    exact acts_commitWith fun ran => moves_acted (failSetupAction_moves ran)
  | skipSetupAction =>
    exact acts_commitWith fun ran => moves_acted (skipSetupAction_moves ran)
  | completeBootstrapMaintenance owner time =>
    refine acts_transact fun ran => ?_
    obtain ⟨middle, ended, handed, finished, released⟩ := completeBootstrapMaintenance_ok ran
    obtain ⟨frame, works⟩ := completeBootstrapHandoff_ok handed
    exact ⟨.finished (fun owned => works anyRegime owned False.elim) frame finished released,
      fun regime owned regular => finished_works (works regime owned regular.1) finished released⟩
  | finishSetupRun owner time =>
    refine acts_transact fun ran => ?_
    obtain ⟨ended, finished, released⟩ := finishAndRelease_ok ran
    exact ⟨.finished (fun owned => works_same owned rfl rfl) rfl finished released,
      fun _ owned _ => finished_works (works_same owned rfl rfl) finished released⟩
  | beginMaintenancePostcheck =>
    refine acts_commitWith fun ran => ?_
    obtain ⟨host, acquiredAt, probe, lease, known, acquired, ⟨maintenance, leased, onHost, owns,
      active⟩, idle, rfl, controls, frame⟩ := beginMaintenancePostcheck_ok ran
    refine ⟨.postcheckBegun known acquired leased onHost owns active idle controls frame, ?_⟩
    intro regime owned _
    rw [frame]
    exact works_same owned rfl rfl
  | finishMaintenancePostcheck => exact acts_transact finishMaintenancePostcheck_acted
  | retainLeaseRecovery owner now =>
    refine acts_commitWith fun ran =>
      ⟨?_, fun _ owned regular => retainLeaseRecovery_works owned ran regular.1⟩
    obtain ⟨acquiredAt, lost, acquired, _, marked, leases, controls, rfl⟩ :=
      retainLeaseRecovery_ok ran
    rcases marked with ⟨_, marked⟩ | ⟨idle, rfl⟩
    · exact .abandoned acquired rfl (.inl ⟨now, marked⟩) leases (.inr controls)
    · exact .abandoned acquired rfl (.inr ⟨idle, rfl⟩) leases (.inr controls)
  | adoptRecoveryMaintenance operationId owner =>
    refine acts_commitWith fun ran => ?_
    obtain ⟨rfl, run, lease, x, acquiredAt, adopted⟩ := adoptRecoveryMaintenance_ok ran
    refine ⟨.adopted adopted, fun regime owned regular => adopted.works owned ?_ fun isPunctual =>
      regular.1 isPunctual run adopted.member adopted.runId⟩
    intro isCareful a there
    obtain ⟨present, own⟩ := mem_workOf.mp there
    exact regular.2 isCareful a present (own.trans adopted.runId)
  | reconcileMaintenance subject verified now =>
    refine acts_transact fun ran => ?_
    rcases reconcileMaintenance_ok ran with ⟨rfl, rfl⟩ |
      ⟨status, run, lease, text, change, rfl, reconciled⟩
    · exact ⟨.none, fun _ owned _ => works_same owned rfl rfl⟩
    · exact ⟨.reconciled reconciled, fun _ owned regular => reconciled.works owned regular.1⟩
  | refreshLeaseHeartbeat =>
    refine acts_transact fun ran => ?_
    obtain ⟨heartbeatAt, acquiredAt, _, _, _, controls, leases, frame⟩ :=
      refreshLeaseHeartbeat_ok ran
    refine ⟨.refreshed controls leases frame, fun regime owned _ => ?_⟩
    rw [frame]
    exact works_same owned rfl rfl
  | beginReadinessProbe =>
    refine acts_commitWith fun ran => ?_
    obtain ⟨host, lease, _, unmaintained, onHost, controls, frame⟩ := beginReadinessProbe_ok ran
    refine ⟨.probeBegun unmaintained onHost controls frame, fun regime owned _ => ?_⟩
    rw [frame]
    exact works_same owned rfl rfl
  | releaseReadinessProbe | releaseReconciledProviderProbe | releaseReconciledNativeProbe =>
    exact acts_commitWith fun ran => noNewLease_acted (deleteProbeLease_ok ran)
  | retainProbeRecovery =>
    exact acts_commitWith fun ran => noNewLease_acted (retainProbeRecovery_ok ran)
  | finishNativeProbeSuccess =>
    exact acts_commitWith fun ran => noNewLease_acted (finishNativeProbeSuccess_ok ran)
  | finishProbeFailure =>
    exact acts_commitWith fun ran => noNewLease_acted (finishProbeFailure_ok ran)

/-- The runs of the store are worked on by steps of their machine, under the regime
that the calls keep to. -/
theorem serve_works (holds : Holds codec db) (owned : Owned db) (call : MaintenanceCall)
    (regular : Regular codec regime db call) :
    Works codec regime db (serveMaintenance codec db call).2 := by
  cases isStore : isStoreCall call with
  | true =>
    cases call with
    | store call => exact pruned_works owned (serve_spares holds call).ledger
    | initializeRestartRecovery detectedAt clock =>
      change Works codec regime db (initializeRestartRecovery codec db detectedAt clock).2
      rcases restart_cases codec db detectedAt clock with same | ⟨times, marked, interrupted, same⟩
      · rw [same]
        exact works_same owned rfl rfl
      · rw [same]
        have works : Works codec regime db marked := interrupted.works owned
        have held := holds_of_ledgerwise (interrupted_ledgerwise interrupted) holds
        exact works.trans (pruned_works works.owned (serve_spares held _).ledger)
    | _ => cases isStore
  | false =>
    rcases serve_acts codec db isStore with ⟨e, served⟩ | ⟨reply, after, served, acted⟩
    · rw [served]
      exact works_same owned rfl rfl
    · rw [served]
      exact acted.works regime owned regular

/-- What every act, every restart and every call on Sessions and Turns keeps, every
call keeps. -/
theorem serveMaintenance_keeps (keeps : Database → Prop) (kept : keeps db)
    (store : ∀ {db} call, keeps db → keeps (serve codec db call).2)
    (marked : ∀ {times after}, Interrupted codec times db after → keeps after)
    (act : ∀ {reply after}, Act codec db reply after → keeps after) (call : MaintenanceCall) :
    keeps (serveMaintenance codec db call).2 := by
  cases isStore : isStoreCall call with
  | true =>
    cases call with
    | store call => exact store call kept
    | initializeRestartRecovery detectedAt clock =>
      show keeps (initializeRestartRecovery codec db detectedAt clock).2
      rcases restart_cases codec db detectedAt clock with same | ⟨times, after, interrupted, same⟩
      · rw [same]
        exact kept
      · rw [same]
        exact store _ (marked interrupted)
    | _ => cases isStore
  | false =>
    rcases serve_acts codec db isStore with ⟨e, served⟩ | ⟨reply, after, served, acts⟩
    · rw [served]
      exact kept
    · rw [served]
      exact act acts.act

theorem serveMaintenance_holds (holds : Holds codec db) (call : MaintenanceCall) :
    Holds codec (serveMaintenance codec db call).2 :=
  serveMaintenance_keeps (Holds codec) holds (fun call holds => serve_holds holds call)
    (fun interrupted => holds_of_ledgerwise (interrupted_ledgerwise interrupted) holds)
    (fun act => holds_of_ledgerwise act.ledgerwise holds) call

/-! ## Runs of calls -/

/-- What the steps of the machine keep. -/
structure Kept (codec : TimeCodec) (regime : Regime) (keeps : Work → Prop) : Prop where
  planned : ∀ {work}, Planned codec work → keeps work
  step : ∀ {work after}, keeps work → WorkStep codec regime work after → keeps after

theorem Kept.steps (kept : Kept codec regime keeps) (start : keeps work)
    (steps : ReflTransGen (WorkStep codec regime) work after) : keeps after := by
  induction steps with
  | refl => exact start
  | tail _ last ih => exact kept.step ih last

theorem works_keep (works : Works codec regime db after) (kept : Kept codec regime keeps)
    (all : ∀ run ∈ db.setupRuns.rows, keeps (workOf db run)) :
    ∀ run ∈ after.setupRuns.rows, keeps (workOf after run) := by
  intro run member
  obtain ⟨start, origin, steps⟩ := works.runs run member
  refine kept.steps ?_ steps
  rcases origin with ⟨old, there, rfl⟩ | planned
  · exact all old there
  · exact kept.planned planned

/-- Every run of a store that calls keeping to a regime have led to. -/
theorem maintained_works (kept : Kept codec regime keeps)
    (regular : ∀ {db call}, allowed db call → Regular codec regime db call)
    (maintained : MaintainedBy codec allowed db) :
    Holds codec db ∧ Owned db ∧ ∀ run ∈ db.setupRuns.rows, keeps (workOf db run) := by
  refine maintained_induction (fun db => Holds codec db ∧ Owned db ∧
    ∀ run ∈ db.setupRuns.rows, keeps (workOf db run)) ?_ ?_ maintained
  · intro db unmaintained
    refine ⟨unmaintained_holds unmaintained, ?_, ?_⟩
    · intro action member
      rw [unmaintained.setupActions] at member
      cases member
    · intro run member
      rw [unmaintained.setupRuns] at member
      cases member
  · rintro db call ⟨holds, owned, all⟩ permitted
    have works := serve_works holds owned call (regular permitted)
    exact ⟨serveMaintenance_holds holds call, works.owned, works_keep works kept all⟩

theorem inOrder_kept (codec : TimeCodec) (regime : Regime) : Kept codec regime InOrder where
  planned := planned_inOrder
  step := step_inOrder

end Satelle.SetupRefinement
