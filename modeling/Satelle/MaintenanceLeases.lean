import Satelle.SetupRefinement
import Satelle.StoreRefinement

/-! Maintenance excludes Computer Use. There is at most one maintenance lease, it is
in the state of its run, every run that has not ended has one, and the only other
leases of its Host are the subleases of its own postcheck. -/
namespace Satelle.MaintenanceLeases
open Satelle.Core Lib Host SetupWorks SetupStatements SetupTransactions StoreChanges MaintenanceActs
open SetupRefinement StoreRefinement AdmissionChanges

/-- A lease is in the state that its run is in. -/
structure Matches (lease : MaintenanceLeaseRow) (run : SetupRunRow) : Prop where
  runId : run.runId = lease.operationId
  state : (lease.leaseState = "active" ∧ run.status = "running") ∨
    (lease.leaseState = "recovery_pending" ∧ run.status = "outcome_unknown")

theorem Matches.unended (matched : Matches lease run) : run.isTerminal = false := by
  rcases matched.state with ⟨_, status⟩ | ⟨_, status⟩
  · exact isTerminal_running status
  · exact isTerminal_unknown status

structure Governed (db : Database) : Prop where
  sole : ∀ lease ∈ db.maintenanceLeases.rows, ∀ other ∈ db.maintenanceLeases.rows, other = lease
  ownHost : ∀ lease ∈ db.maintenanceLeases.rows, db.daemonIdentity = some lease.hostIdentityRef
  matched : ∀ lease ∈ db.maintenanceLeases.rows, ∃ run ∈ db.setupRuns.rows, Matches lease run
  held : ∀ run ∈ db.setupRuns.rows, run.isTerminal = false →
    ∃ lease ∈ db.maintenanceLeases.rows, lease.operationId = run.runId
  exclusive : ∀ lease ∈ db.maintenanceLeases.rows, ∀ control ∈ db.controlLeases.rows,
    control.hostIdentityRef = lease.hostIdentityRef →
      control.ownerKind = "native_probe" ∧ control.operationId = lease.operationId

/-- A store without a maintenance lease in which every run has ended. -/
theorem governed_idle (none : db.maintenanceLeases.rows = [])
    (past : ∀ run ∈ db.setupRuns.rows, run.isTerminal = true) : Governed db where
  sole := by simp [none]
  ownHost := by simp [none]
  matched := by simp [none]
  held := by
    intro run member unended
    rw [past run member] at unended
    cases unended
  exclusive := by simp [none]

/-- A lease that no maintenance lease excludes: it was there, or is a sublease. -/
def Permitted (db : Database) (control : ControlLeaseRow) : Prop :=
  (∃ old ∈ db.controlLeases.rows, SameHolder old control) ∨
    ∀ lease ∈ db.maintenanceLeases.rows, control.hostIdentityRef = lease.hostIdentityRef →
      control.ownerKind = "native_probe" ∧ control.operationId = lease.operationId

/-- The lease and the runs move together, and no lease is added that the maintenance
lease excludes. -/
structure Moves (db after : Database) (leaseChange : MaintenanceLeaseRow → MaintenanceLeaseRow)
    (runChange : SetupRunRow → SetupRunRow) : Prop where
  identity : after.daemonIdentity = db.daemonIdentity
  leases : after.maintenanceLeases.rows = db.maintenanceLeases.rows.map leaseChange
  host : ∀ lease, (leaseChange lease).hostIdentityRef = lease.hostIdentityRef
  operationId : ∀ lease, (leaseChange lease).operationId = lease.operationId
  runs : ∀ run ∈ after.setupRuns.rows, ∃ old ∈ db.setupRuns.rows, run = runChange old
  stays : ∀ run ∈ db.setupRuns.rows, run.isTerminal = false → runChange run ∈ after.setupRuns.rows
  runId : ∀ run, (runChange run).runId = run.runId
  past : ∀ run, run.isTerminal = true → (runChange run).isTerminal = true
  matched : ∀ lease ∈ db.maintenanceLeases.rows, ∀ run ∈ db.setupRuns.rows, Matches lease run →
    Matches (leaseChange lease) (runChange run)
  controls : ∀ control ∈ after.controlLeases.rows, Permitted db control

theorem Governed.moves (governed : Governed db) (moves : Moves db after leaseChange runChange) :
    Governed after where
  sole := by
    simp only [moves.leases, List.forall_mem_map]
    intro old there another present
    rw [governed.sole old there another present]
  ownHost := by
    rw [moves.leases, moves.identity, List.forall_mem_map]
    intro old there
    rw [moves.host, governed.ownHost old there]
  matched := by
    rw [moves.leases, List.forall_mem_map]
    intro old there
    obtain ⟨run, present, matched⟩ := governed.matched old there
    exact ⟨runChange run, moves.stays run present matched.unended,
      moves.matched old there run present matched⟩
  held := by
    intro run member unended
    obtain ⟨old, there, rfl⟩ := moves.runs run member
    have was : old.isTerminal = false := by
      rw [Bool.eq_false_iff]
      intro ended
      rw [moves.past old ended] at unended
      cases unended
    obtain ⟨lease, present, names⟩ := governed.held old there was
    refine ⟨leaseChange lease, ?_, ?_⟩
    · rw [moves.leases]
      exact List.mem_map_of_mem present
    · rw [moves.operationId, moves.runId, names]
  exclusive := by
    rw [moves.leases, List.forall_mem_map]
    intro old there control held onHost
    rw [moves.host] at onHost
    rw [moves.operationId]
    rcases moves.controls control held with ⟨before, present, same⟩ | excluded
    · rw [same.kind, same.operationId]
      exact governed.exclusive old there before present (same.host ▸ onHost)
    · exact excluded old there onHost

/-- The runs and the leases stay; only leases that are not excluded are added. -/
theorem moves_none (identity : after.daemonIdentity = db.daemonIdentity)
    (leases : after.maintenanceLeases = db.maintenanceLeases) (runs : after.setupRuns = db.setupRuns)
    (controls : ∀ control ∈ after.controlLeases.rows, Permitted db control) :
    Moves db after id id where
  identity := identity
  leases := by rw [leases, List.map_id]
  host := fun _ => rfl
  operationId := fun _ => rfl
  runs := fun run member => ⟨run, runs ▸ member, rfl⟩
  stays := fun run member _ => by
    rw [runs]
    exact member
  runId := fun _ => rfl
  past := fun _ ended => ended
  matched := fun _ _ _ _ matched => matched
  controls := controls

theorem permitted_same {db after : Database} (same : after.controlLeases = db.controlLeases) :
    ∀ control ∈ after.controlLeases.rows, Permitted db control :=
  fun control held => .inl ⟨control, same ▸ held, .refl control⟩

/-- One more lease, which is permitted. -/
theorem permitted_added {after : Database}
    (controls : after.controlLeases.rows = db.controlLeases.rows ++ [added])
    (new : Permitted db added) : ∀ control ∈ after.controlLeases.rows, Permitted db control := by
  rw [controls]
  exact forall_mem_concat.mpr ⟨fun control old => .inl ⟨control, old, .refl control⟩, new⟩

/-- A new lease on a Host that nobody maintains. -/
theorem permitted_unmaintained {control : ControlLeaseRow}
    (unmaintained : db.maintenanceLeases.lookup control.hostIdentityRef = none) :
    Permitted db control :=
  .inr fun lease member onHost =>
    absurd onHost.symm (Table.lookup_eq_none.mp unmaintained lease member)

/-- The runs are changed one by one. -/
theorem moved_runs {db after : Database}
    (mapped : after.setupRuns.rows = db.setupRuns.rows.map runChange) :
    (∀ run ∈ after.setupRuns.rows, ∃ old ∈ db.setupRuns.rows, run = runChange old) ∧
      ∀ run ∈ db.setupRuns.rows, run.isTerminal = false →
        runChange run ∈ after.setupRuns.rows := by
  rw [mapped]
  refine ⟨fun run member => ?_, fun run member _ => List.mem_map_of_mem member⟩
  obtain ⟨old, there, made⟩ := List.mem_map.mp member
  exact ⟨old, there, made.symm⟩

/-- A run that has ended is not one that is updated. -/
theorem runUpdate_past (unended : ∀ {run : SetupRunRow},
      run.status = expected → run.isTerminal = false) (run : SetupRunRow)
    (ended : run.isTerminal = true) :
    (runUpdate runId expected status finishedAt run).isTerminal = true := by
  unfold runUpdate patch
  split
  · rename_i hit
    simp only [Bool.and_eq_true, decide_eq_true_eq] at hit
    rw [unended hit.2] at ended
    cases ended
  · exact ended

theorem spares_moves (spares : Spares db after) : Moves db after id id := by
  obtain ⟨gone, runs, _, terminal⟩ := spares.ledger
  refine {
    identity := spares.identity
    leases := by rw [spares.leases, List.map_id]
    host := fun _ => rfl
    operationId := fun _ => rfl
    runs := ?_
    stays := ?_
    runId := fun _ => rfl
    past := fun _ ended => ended
    matched := fun _ _ _ _ matched => matched
    controls := ?_ }
  · intro run member
    rw [runs] at member
    exact ⟨run, List.mem_of_mem_filter member, rfl⟩
  · intro run member unended
    rw [runs]
    refine List.mem_filter.mpr ⟨member, ?_⟩
    by_contra removed
    rw [terminal run member (by simpa using removed)] at unended
    cases unended
  · intro control held
    rcases spares.controls control held with old | unmaintained
    · exact .inl old
    · exact permitted_unmaintained unmaintained

/-! ## A run that is begun -/

theorem hostIdentity_ok (known : hostIdentity db = .ok host) :
    db.daemonIdentity = some host.text := by
  simp only [hostIdentity, except_bind_ok, orFail_ok] at known
  obtain ⟨value, found, parsed⟩ := known
  unfold storedReference Reference.new at parsed
  split at parsed
  · cases parsed
    exact found
  · cases parsed

theorem Governed.begun (governed : Governed db) (known : hostIdentity db = .ok host)
    (named : plan.runId.text = owner.operationId.text)
    (begun : Begun codec plan owner host db middle run lease)
    (frame : after = { middle with setupActions := after.setupActions }) : Governed after := by
  have idle : db.maintenanceLeases.rows = [] := by
    rw [List.eq_nil_iff_forall_not_mem]
    intro other member
    have same := (governed.ownHost other member).symm.trans (hostIdentity_ok known)
    exact begun.unmaintained other member (Option.some.inj same)
  have leases : after.maintenanceLeases.rows = [lease] := by
    rw [frame, begun.leases, idle, List.nil_append]
  have runs : after.setupRuns.rows = db.setupRuns.rows ++ [run] := by
    rw [frame, begun.runs]
  have identity : after.daemonIdentity = db.daemonIdentity := by
    rw [frame, begun.frame]
  have controls : after.controlLeases = db.controlLeases := by
    rw [frame, begun.frame]
  have names : lease.operationId = run.runId := by
    rw [begun.operationId, begun.runId, named]
  constructor
  · simp [leases]
  · rw [leases, identity, hostIdentity_ok known]
    intro other member
    rw [List.mem_singleton.mp member, begun.onHost]
  · rw [leases, runs]
    intro other member
    rw [List.mem_singleton.mp member]
    exact ⟨run, by simp, names.symm, .inl ⟨begun.active, begun.running⟩⟩
  · rw [leases, runs]
    refine forall_mem_concat.mpr ⟨fun other old unended => ?_, fun _ => ⟨lease, by simp, names⟩⟩
    -- without a lease every earlier run has ended
    obtain ⟨none, there, _⟩ := governed.held other old unended
    rw [idle] at there
    cases there
  · rw [leases, controls]
    intro other member control held onHost
    rw [List.mem_singleton.mp member, begun.onHost] at onHost
    exact absurd onHost (begun.idle control held)

/-! ## A run that ends -/

/-- With its run the lease is gone, and no other run is left that has not ended. -/
theorem Governed.ended (governed : Governed db) (leased : lease ∈ db.maintenanceLeases.rows)
    (names : lease.operationId = run.runId) (member : run ∈ db.setupRuns.rows)
    (expects : run.status = expected) {status : SetupRunStatus}
    (terminal : status = .completed ∨ status = .failed ∨ status = .partialFailure)
    (runs : after.setupRuns.rows =
      db.setupRuns.rows.map (runUpdate run.runId expected status.asStr finishedAt))
    (leases : ∀ other, other ∈ after.maintenanceLeases.rows ↔
      other ∈ db.maintenanceLeases.rows ∧ other ≠ lease) : Governed after := by
  refine governed_idle ?_ ?_
  · rw [List.eq_nil_iff_forall_not_mem]
    intro other still
    obtain ⟨there, ne⟩ := (leases other).mp still
    exact ne (governed.sole lease leased other there)
  · rw [runs, List.forall_mem_map]
    intro old there
    by_cases same : old.runId = run.runId
    · rw [Table.row_unique there member same, runUpdate_of rfl expects]
      rcases terminal with rfl | rfl | rfl <;> rfl
    · rw [runUpdate_other same]
      by_contra unended
      obtain ⟨another, present, named⟩ := governed.held old there (by simpa using unended)
      rw [governed.sole lease leased another present, names] at named
      exact same named.symm

/-- A running run has no action whose outcome is unknown, so it ends with a status
that is known. -/
theorem finish_terminal (inOrder : ∀ run ∈ db.setupRuns.rows, InOrder (workOf db run))
    (finished : finishSetupRunInTransaction codec db runId time = .ok (status, ended)) :
    status = .completed ∨ status = .failed ∨ status = .partialFailure := by
  obtain ⟨run, member, _, _, running, _, tallied, _⟩ := finishSetupRun_ok finished
  rwa [if_neg fun ⟨a, there, unknown⟩ =>
    (inOrder run member).running running a there unknown] at tallied

theorem Governed.finished (governed : Governed db) (owned : Owned db)
    (inOrder : ∀ run ∈ db.setupRuns.rows, InOrder (workOf db run))
    (moved : Owned db → Works codec anyRegime db middle)
    (frame : middle = { db with setupActions := middle.setupActions })
    (finished : finishSetupRunInTransaction codec middle runId time = .ok (status, closed))
    (leased : lease ∈ db.maintenanceLeases.rows) (names : lease.operationId = runId)
    (sameRuns : after.setupRuns = closed.setupRuns)
    (leases : ∀ other, other ∈ after.maintenanceLeases.rows ↔
      other ∈ db.maintenanceLeases.rows ∧ other ≠ lease) : Governed after := by
  have known := finish_terminal (works_keep (moved owned) (inOrder_kept codec _) inOrder) finished
  obtain ⟨run, member, text, own, running, _, _, _, _, _, runs, _⟩ := finishSetupRun_ok finished
  have middleRuns : middle.setupRuns = db.setupRuns := by rw [frame]
  rw [middleRuns] at member runs
  rw [← own] at runs
  exact governed.ended leased (names.trans own.symm) member running known (sameRuns ▸ runs) leases

/-! ## A run that is lost or taken over -/

/-- The leases that an owner leaves to recovery. -/
def leaveControl (owner : LeaseOwner) (acquiredAt : String) : ControlLeaseRow → ControlLeaseRow :=
  patch (fun lease => lease.isOwnedBy owner acquiredAt && lease.leaseState = "active")
    (fun lease => { lease with leaseState := "recovery_pending" })

def leaveMaintenance (owner : LeaseOwner) (acquiredAt : String) :
    MaintenanceLeaseRow → MaintenanceLeaseRow :=
  patch (fun lease => lease.ownedBy owner acquiredAt && lease.leaseState = "active")
    (fun lease => { lease with leaseState := "recovery_pending" })

section
variable (governed : Governed db)
include governed

/-- An owner that leaves its leases to recovery held the one maintenance lease, and the
run of it was running. -/
theorem Governed.abandoned
    (frame : middle = { db with setupActions := middle.setupActions })
    (marked : (∃ time, markSetupRunOutcomeUnknownInTransaction codec middle owner.operationId.text
      time = .ok lost) ∨ (isRunning db owner.operationId.text = false ∧ lost = middle))
    (counted : countMaintenanceLeases lost owner acquiredAt = 1) :
    ∃ lease ∈ db.maintenanceLeases.rows, ∃ text, lease.ownedBy owner acquiredAt = true ∧
      lease.leaseState = "active" ∧
      lost.setupRuns.rows = db.setupRuns.rows.map
        (runUpdate owner.operationId.text "running" "outcome_unknown" (some text)) ∧
      lost = { db with setupRuns := lost.setupRuns, setupActions := lost.setupActions } := by
  have sameLeases : lost.maintenanceLeases = db.maintenanceLeases := by
    rcases marked with ⟨_, marked⟩ | ⟨_, rfl⟩
    · obtain ⟨_, _, _, _, _, _, _, _, same⟩ := markOutcomeUnknown_ok marked
      rw [same, frame]
    · rw [frame]
  unfold countMaintenanceLeases at counted
  rw [sameLeases] at counted
  obtain ⟨lease, leased, hit, _⟩ := Table.exists_of_countP_one counted
  simp only [Bool.and_eq_true, decide_eq_true_eq] at hit
  rcases marked with ⟨_, marked⟩ | ⟨idle, _⟩
  · obtain ⟨run, _, text, _, _, _, runs, _, same⟩ := markOutcomeUnknown_ok marked
    have middleRuns : middle.setupRuns = db.setupRuns := by rw [frame]
    rw [middleRuns] at runs
    refine ⟨lease, leased, text, hit.1, hit.2, runs, ?_⟩
    rw [same, frame]
  · -- the run of an active lease is running
    obtain ⟨run, member, matched⟩ := governed.matched lease leased
    rcases matched.state with ⟨_, running⟩ | ⟨pending, _⟩
    · have isRunning := isRunning_iff.mpr ⟨run, member,
        matched.runId.trans (ownedBy_operationId hit.1), running⟩
      rw [idle] at isRunning
      cases isRunning
    · rw [hit.2] at pending
      simp at pending

theorem Governed.handedOver
    (leased : lease ∈ db.maintenanceLeases.rows) (owns : lease.ownedBy owner acquiredAt = true)
    (active : lease.leaseState = "active")
    (runs : lost.setupRuns.rows = db.setupRuns.rows.map
      (runUpdate owner.operationId.text "running" "outcome_unknown" (some text)))
    (frame : lost = { db with setupRuns := lost.setupRuns, setupActions := lost.setupActions }) :
    Governed (handedOver owner acquiredAt lost) := by
  have sameLeases : lost.maintenanceLeases = db.maintenanceLeases := by rw [frame]
  have sameControls : lost.controlLeases = db.controlLeases := by rw [frame]
  have changed := moved_runs runs
  have moves : Moves db (SetupTransactions.handedOver owner acquiredAt lost)
      (leaveMaintenance owner acquiredAt)
      (runUpdate owner.operationId.text "running" "outcome_unknown" (some text)) := {
    identity := by
      show lost.daemonIdentity = db.daemonIdentity
      rw [frame]
    leases := by
      show lost.maintenanceLeases.rows.map _ = _
      rw [sameLeases]
      rfl
    host := fun lease => by
      unfold leaveMaintenance patch
      split <;> rfl
    operationId := fun lease => by
      unfold leaveMaintenance patch
      split <;> rfl
    runs := changed.1
    stays := changed.2
    runId := fun run => runUpdate_runId
    past := runUpdate_past isTerminal_running
    matched := fun other there run member matched => by
      rw [governed.sole lease leased other there] at matched ⊢
      have own : run.runId = owner.operationId.text :=
        matched.runId.trans (ownedBy_operationId owns)
      rcases matched.state with ⟨_, running⟩ | ⟨pending, _⟩
      · have left : leaveMaintenance owner acquiredAt lease =
            { lease with leaseState := "recovery_pending" } := by
          simp [leaveMaintenance, patch, owns, active]
        rw [left, runUpdate_of own running]
        exact ⟨matched.runId, .inr ⟨rfl, rfl⟩⟩
      · rw [active] at pending
        simp at pending
    controls := fun control held => by
      have there : control ∈ lost.controlLeases.rows.map (leaveControl owner acquiredAt) := held
      rw [sameControls] at there
      obtain ⟨old, present, rfl⟩ := List.mem_map.mp there
      exact .inl ⟨old, present, patch_holder _ _ old⟩ }
  exact governed.moves moves

theorem Governed.adopted
    (adopted : Adopted codec owner db after run lease x acquiredAt) : Governed after := by
  have moves : Moves db after
      (fun other => if other = lease then adoption owner acquiredAt lease else other)
      (runUpdate run.runId "outcome_unknown" "running" none) := {
    identity := by rw [adopted.frame]
    leases := adopted.leases
    host := fun other => by
      split
      · rename_i same
        rw [same]
        rfl
      · rfl
    operationId := fun other => by
      split
      · rename_i same
        rw [same]
        rfl
      · rfl
    runs := (moved_runs adopted.runs).1
    stays := (moved_runs adopted.runs).2
    runId := fun _ => runUpdate_runId
    past := runUpdate_past isTerminal_unknown
    matched := fun other there old member matched => by
      have isLease := governed.sole lease adopted.leased other there
      rw [isLease] at matched
      have isRun : old = run := Table.row_unique member adopted.member
        (matched.runId.trans adopted.operationId)
      rw [isLease, if_pos rfl, isRun, runUpdate_of rfl adopted.unknown]
      exact ⟨adopted.operationId.symm, .inl ⟨rfl, rfl⟩⟩
    controls := permitted_same (by rw [adopted.frame]) }
  exact governed.moves moves

theorem Governed.interrupted
    (interrupted : Interrupted codec times db after) : Governed after := by
  have moves : Moves db after
      (patch (fun lease => lease.leaseState = "active")
        (fun lease => { lease with leaseState := "recovery_pending" }))
      (patch (fun run => run.status = "running")
        (fun run => { run with
          status := "outcome_unknown"
          finishedAt := some (recoveryText codec times run.runId) })) := {
    identity := by rw [interrupted.frame]
    leases := interrupted.leases
    host := fun lease => by
      unfold patch
      split <;> rfl
    operationId := fun lease => by
      unfold patch
      split <;> rfl
    runs := (moved_runs interrupted.runs).1
    stays := (moved_runs interrupted.runs).2
    runId := fun run => by
      unfold patch
      split <;> rfl
    past := fun run ended => by
      unfold patch
      split
      · rename_i running
        rw [isTerminal_running (of_decide_eq_true running)] at ended
        cases ended
      · exact ended
    matched := fun lease _ run _ matched => by
      rcases matched.state with ⟨active, running⟩ | ⟨pending, unknown⟩
      · simp only [patch, active, running, decide_true, if_true]
        exact ⟨matched.runId, .inr ⟨rfl, rfl⟩⟩
      · simp only [patch, pending, unknown]
        exact matched
    controls := permitted_same (by rw [interrupted.frame]) }
  exact governed.moves moves

/-! ## Every call -/

theorem Governed.postcheck
    (leased : maintenance ∈ db.maintenanceLeases.rows)
    (owns : maintenance.ownedBy owner acquiredAt = true)
    (controls : after.controlLeases.rows =
      db.controlLeases.rows ++ [probeLease .native host binding probe owner acquiredAt])
    (frame : after = { db with controlLeases := after.controlLeases }) : Governed after := by
  refine governed.moves (moves_none (by rw [frame]) (by rw [frame]) (by rw [frame])
    (permitted_added controls (.inr fun lease member _ => ⟨rfl, ?_⟩)))
  rw [governed.sole maintenance leased lease member, ownedBy_operationId owns]
  rfl

theorem Governed.released (owned : Owned db)
    (inOrder : ∀ run ∈ db.setupRuns.rows, InOrder (workOf db run))
    (moved : Owned db → Works codec anyRegime db middle)
    (frame : middle = { db with setupActions := middle.setupActions })
    (finished : finishSetupRunInTransaction codec middle owner.operationId.text time =
      .ok (status, closed))
    (released : releaseActiveMaintenance codec closed owner = .ok after) : Governed after := by
  obtain ⟨lease, leased, ⟨_, owns⟩, leases, same⟩ := releaseActiveMaintenance_ok released
  obtain ⟨_, _, _, _, _, _, _, _, _, _, _, closes⟩ := finishSetupRun_ok finished
  have sameLeases : closed.maintenanceLeases = db.maintenanceLeases := by rw [closes, frame]
  rw [sameLeases] at leased leases
  refine governed.finished owned inOrder moved frame finished leased (ownedBy_operationId owns) ?_
    leases
  rw [same]

theorem Governed.refreshed
    (controls : after.controlLeases.rows =
      db.controlLeases.rows.map (controlBeat owner acquiredAt heartbeatAt))
    (leases : after.maintenanceLeases.rows =
      db.maintenanceLeases.rows.map (maintenanceBeat owner acquiredAt heartbeatAt))
    (frame : after = { db with
      controlLeases := after.controlLeases
      maintenanceLeases := after.maintenanceLeases }) : Governed after := by
  have sameRuns : after.setupRuns = db.setupRuns := by rw [frame]
  have beat : ∀ lease, maintenanceBeat owner acquiredAt heartbeatAt lease =
      { lease with heartbeatAt := (maintenanceBeat owner acquiredAt heartbeatAt lease).heartbeatAt } := by
    intro lease
    unfold maintenanceBeat patch
    split <;> rfl
  have moves : Moves db after (maintenanceBeat owner acquiredAt heartbeatAt) id := {
    identity := by rw [frame]
    leases := leases
    host := fun lease => by rw [beat]
    operationId := fun lease => by rw [beat]
    runs := fun run member => ⟨run, sameRuns ▸ member, rfl⟩
    stays := fun run member _ => by
      rw [sameRuns]
      exact member
    runId := fun _ => rfl
    past := fun _ ended => ended
    matched := fun lease _ run _ matched => by
      rw [beat]
      exact ⟨matched.runId, matched.state⟩
    controls := fun control held => by
      rw [controls] at held
      obtain ⟨old, there, rfl⟩ := List.mem_map.mp held
      refine .inl ⟨old, there, ?_⟩
      unfold controlBeat patch
      split
      · exact ⟨rfl, rfl, rfl⟩
      · exact .refl old }
  exact governed.moves moves

theorem governed_act (owned : Owned db)
    (inOrder : ∀ run ∈ db.setupRuns.rows, InOrder (workOf db run))
    (act : Act codec db reply after) : Governed after := by
  cases act with
  | none => exact governed
  | moved frame =>
    exact governed.moves (moves_none (by rw [frame]) (by rw [frame]) (by rw [frame])
      (permitted_same (by rw [frame])))
  | begun known named begun frame => exact governed.begun known named begun frame
  | finished moved frame finished released =>
    exact governed.released owned inOrder moved frame finished released
  | postcheckBegun _ _ leased _ owns _ _ controls frame =>
    exact governed.postcheck leased owns controls frame
  | abandoned _ frame marked counted =>
    obtain ⟨lease, leased, text, owns, active, runs, same⟩ :=
      governed.abandoned frame marked counted
    exact governed.handedOver leased owns active runs same
  | settled moved frame settled =>
    have sameRuns : after.setupRuns = _ := congrArg Database.setupRuns settled.frame
    exact governed.finished owned inOrder moved frame settled.finished settled.leased
      (ownedBy_operationId settled.leaseOwned) sameRuns settled.leases
  | adopted adopted => exact governed.adopted adopted
  | reconciled reconciled =>
    exact governed.ended reconciled.leased reconciled.operationId reconciled.member
      reconciled.unknown reconciled.terminal reconciled.runs reconciled.leases
  | refreshed controls leases frame => exact governed.refreshed controls leases frame
  | probeBegun unmaintained onHost controls frame =>
    exact governed.moves (moves_none (by rw [frame]) (by rw [frame]) (by rw [frame])
      (permitted_added controls (permitted_unmaintained (onHost ▸ unmaintained))))
  | probeEnded ended =>
    refine governed.moves (moves_none ?_ ?_ ?_ fun control held => .inl (ended.controls control held))
    all_goals rw [ended.frame]

end

/-- The store of a run of calls: it holds Sessions, its runs are in order, and its
leases are governed. -/
structure Sound (codec : TimeCodec) (db : Database) : Prop where
  holds : Holds codec db
  owned : Owned db
  inOrder : ∀ run ∈ db.setupRuns.rows, InOrder (workOf db run)
  governed : Governed db

theorem serve_governed (sound : Sound codec db) (call : MaintenanceCall) :
    Governed (serveMaintenance codec db call).2 := by
  have both : Holds codec (serveMaintenance codec db call).2 ∧
      Governed (serveMaintenance codec db call).2 :=
    serveMaintenance_keeps (fun db => Holds codec db ∧ Governed db)
      ⟨sound.holds, sound.governed⟩
      (fun call kept => ⟨serve_holds kept.1 call,
        kept.2.moves (spares_moves (serve_spares kept.1 call))⟩)
      (fun interrupted => ⟨holds_of_ledgerwise (interrupted_ledgerwise interrupted) sound.holds,
        sound.governed.interrupted interrupted⟩)
      (fun act => ⟨holds_of_ledgerwise act.ledgerwise sound.holds,
        governed_act sound.governed sound.owned sound.inOrder act⟩) call
  exact both.2

theorem serve_sound (sound : Sound codec db) (call : MaintenanceCall) :
    Sound codec (serveMaintenance codec db call).2 := by
  have works : Works codec anyRegime db (serveMaintenance codec db call).2 :=
    serve_works sound.holds sound.owned call ⟨False.elim, False.elim⟩
  exact ⟨serveMaintenance_holds sound.holds call, works.owned,
    works_keep works (inOrder_kept codec _) sound.inOrder, serve_governed sound call⟩

theorem maintained_sound (maintained : MaintainedBy codec allowed db) : Sound codec db := by
  refine maintained_induction (Sound codec) ?_ (fun sound _ => serve_sound sound _) maintained
  intro db unmaintained
  refine ⟨unmaintained_holds unmaintained, ?_, ?_,
    governed_idle unmaintained.maintenanceLeases (by simp [unmaintained.setupRuns])⟩
  · intro action member
    rw [unmaintained.setupActions] at member
    cases member
  · intro run member
    rw [unmaintained.setupRuns] at member
    cases member

/-! ## Exclusion -/

/-- A Turn is only admitted while nobody maintains the daemon's Host. -/
theorem executed_unmaintained (represents : Represents codec db held) (own : OwnHost db held)
    (ran : serve codec db call = (.ok (.admission (.execute session subject)), after)) :
    ∃ host, db.daemonIdentity = some host ∧ db.maintenanceLeases.lookup host = none := by
  obtain ⟨_, _, began⟩ := StoreTransactions.serve_began represents ran
  generalize executes : AdmissionOutcome.execute session subject = outcome at began
  cases began with
  | replayed _ replayed =>
    simp only [replayAdmission, except_bind_ok] at replayed
    obtain ⟨_, _, _, _, _, _, outcome, ran, made⟩ := replayed
    cases made
    cases executes
    unfold replayedOutcome at ran
    split at ran
    · simp only [except_bind_ok] at ran
      obtain ⟨_, _, _, _, made⟩ := ran
      cases made
    · simp only [except_bind_ok] at ran
      obtain ⟨_, _, _, _, _, _, _, _, made⟩ := ran
      cases made
    · cases ran
  | admitted _ _ _ unmaintained hosted =>
    rcases hosted with known | ⟨_, before, loaded, same⟩
    · exact ⟨_, known, unmaintained⟩
    · exact ⟨_, own _ _ (represents.required.mp loaded), same ▸ unmaintained⟩

/-- A reply that admits a Turn, a probe or another maintenance operation. -/
def Admits : MaintenanceCall → MaintenanceReply → Prop
  | .store _, .store (.admission (.execute _ _)) => True
  | .beginSetupRun _ _ _, _ | .beginBootstrapMaintenance _ _ _, _
  | .beginReadinessProbe _ _ _ _ _, _ => True
  | _, _ => False

theorem commitWith_reply
    (replied : (commitWith db made result).1 = .ok reply) : ∃ after, result = .ok after := by
  cases result with
  | error e => cases replied
  | ok after => exact ⟨after, rfl⟩

/-- While a lease exists nothing else is admitted. -/
theorem Sound.excludes (sound : Sound codec db) (leased : lease ∈ db.maintenanceLeases.rows)
    (replied : (serveMaintenance codec db call).1 = .ok reply) : ¬Admits call reply := by
  have onHost := sound.governed.ownHost lease leased
  -- The daemon's own Host is the one that is maintained.
  have maintained : ∀ {host}, db.daemonIdentity = some host →
      db.maintenanceLeases.lookup host ≠ none := by
    intro host known
    rw [onHost] at known
    cases known
    exact fun absent => Table.lookup_eq_none.mp absent lease leased rfl
  have begins : ∀ {plan owner host after run new},
      hostIdentity db = .ok host → ¬Begun codec plan owner host db after run new := by
    intro plan owner host after run new known begun
    have same := Option.some.inj (onHost.symm.trans (hostIdentity_ok known))
    exact begun.unmaintained lease leased same
  intro admits
  cases call with
  | store call =>
    obtain ⟨held, represents, own⟩ := sound.holds
    have stored : (serve codec db call).1.map MaintenanceReply.store = .ok reply := replied
    cases served : (serve codec db call).1 with
    | error e =>
      rw [served] at stored
      cases stored
    | ok answer =>
      rw [served] at stored
      cases stored
      cases answer with
      | admission outcome =>
        cases outcome with
        | execute session subject =>
          obtain ⟨host, known, none⟩ := executed_unmaintained represents own (Prod.ext served rfl)
          exact maintained known none
        | _ => exact admits
      | _ => exact admits
  | beginSetupRun version plan owner =>
    obtain ⟨after, ran⟩ := commitWith_reply replied
    obtain ⟨_, _, _, known, _, begun⟩ := beginSetupRun_ok ran
    exact begins known begun
  | beginBootstrapMaintenance version plan owner =>
    obtain ⟨after, ran⟩ := commitWith_reply replied
    obtain ⟨_, _, _, _, known, _, begun, _⟩ := beginBootstrapMaintenance_ok ran
    exact begins known begun
  | beginReadinessProbe kind binding probeRef owner now =>
    obtain ⟨after, ran⟩ := commitWith_reply replied
    obtain ⟨_, _, known, none, _⟩ := beginReadinessProbe_ok ran
    exact maintained (hostIdentity_ok known) none
  | _ => exact admits

theorem Governed.length (governed : Governed db) : db.maintenanceLeases.rows.length ≤ 1 :=
  Table.length_le_one governed.sole

theorem maintenance_excludes_computer_use (codec : TimeCodec) (db : Database)
    (maintained : MaintainedBy codec (fun _ _ => True) db) :
    db.maintenanceLeases.rows.length ≤ 1 ∧
    ∀ lease ∈ db.maintenanceLeases.rows,
      (∀ control ∈ db.controlLeases.rows, control.hostIdentityRef = lease.hostIdentityRef →
        control.ownerKind = "native_probe" ∧ control.operationId = lease.operationId) ∧
      (∃ run, db.setupRuns.lookup lease.operationId = some run ∧
        (lease.leaseState = "active" ∨ lease.leaseState = "recovery_pending") ∧
        (lease.leaseState = "active" ↔ run.status = "running") ∧
        (lease.leaseState = "recovery_pending" ↔ run.status = "outcome_unknown")) ∧
      ∀ call reply, (serveMaintenance codec db call).1 = .ok reply → ¬Admits call reply := by
  have sound := maintained_sound maintained
  refine ⟨sound.governed.length, ?_⟩
  intro lease leased
  refine ⟨sound.governed.exclusive lease leased, ?_, fun call reply => sound.excludes leased⟩
  obtain ⟨run, member, matched⟩ := sound.governed.matched lease leased
  refine ⟨run, Table.lookup_eq_some.mpr ⟨member, matched.runId⟩, ?_⟩
  rcases matched.state with ⟨state, status⟩ | ⟨state, status⟩ <;> simp [state, status]

/-! ## One concrete setup -/

def sampleSetup : SetupRunPlan where
  runId := (sampleOwner 0).operationId
  operationKind := .setup
  desktopBinding := none
  startedAt := seconds 0
  actions := [
    ⟨⟨"install-test", by decide⟩, ⟨"Install", by decide⟩, false⟩,
    ⟨⟨"verify-test", by decide⟩, ⟨"Verify", by decide⟩, true⟩]
  nonempty := by simp
  distinct := by decide

theorem emptyStore_unmaintained : Unmaintained emptyStore where
  fresh := emptyStore_fresh
  controlLeases := rfl
  maintenanceLeases := rfl
  setupRuns := rfl
  setupActions := rfl

def beginSample : MaintenanceCall := .beginSetupRun "0.1.0" sampleSetup (sampleOwner 0)

/-- The calls of a run, each of them allowed where it is made. -/
def AllowedRun (codec : TimeCodec) (allowed : Database → MaintenanceCall → Prop) :
    Database → List MaintenanceCall → Prop
  | _, [] => True
  | db, call :: rest =>
    allowed db call ∧ AllowedRun codec allowed (serveMaintenance codec db call).2 rest

/-- The store that calls lead to. -/
def maintain (codec : TimeCodec) (db : Database) (calls : List MaintenanceCall) : Database :=
  calls.foldl (fun db call => (serveMaintenance codec db call).2) db

theorem maintain_maintained
    (maintained : MaintainedBy codec allowed db) (run : AllowedRun codec allowed db calls) :
    MaintainedBy codec allowed (maintain codec db calls) := by
  induction calls generalizing db with
  | nil => exact maintained
  | cons call rest ih =>
    obtain ⟨start, unmaintained, before⟩ := maintained
    exact ih ⟨start, unmaintained, before.tail ⟨call, run.1, rfl⟩⟩ run.2

theorem unmaintained_maintained (unmaintained : Unmaintained db) :
    MaintainedBy codec allowed db :=
  ⟨db, unmaintained, .refl⟩

theorem maintenance_excludes_computer_use_begun :
    (maintain sampleCodec emptyStore [beginSample]).maintenanceLeases.rows.length = 1 ∧
    ∀ lease ∈ (maintain sampleCodec emptyStore [beginSample]).maintenanceLeases.rows,
      ∀ call reply, (serveMaintenance sampleCodec
        (maintain sampleCodec emptyStore [beginSample]) call).1 = .ok reply →
          ¬Admits call reply := by
  refine ⟨by decide +kernel, fun lease leased => ?_⟩
  have maintained : MaintainedBy sampleCodec (fun _ _ => True)
      (maintain sampleCodec emptyStore [beginSample]) :=
    maintain_maintained (unmaintained_maintained emptyStore_unmaintained) ⟨trivial, trivial⟩
  exact ((maintenance_excludes_computer_use sampleCodec _ maintained).2 lease leased).2.2

end Satelle.MaintenanceLeases
