import Satelle.MaintenanceLeases

/-! What the owner of a lease can do with it. The lease of a maintenance operation and
the sublease of its postcheck have one owner and one state, so that the owner can hand
both to recovery; an owner refreshes its own leases and no others. -/
namespace Satelle.LeaseOwners
open Satelle.Core Lib Host SetupWorks SetupStatements SetupTransactions MaintenanceActs
open StoreRefinement StoreRows MaintenanceLeases

/-! ## The pair of a postcheck -/

/-- A sublease with its maintenance lease. -/
structure Paired (control : ControlLeaseRow) (lease : MaintenanceLeaseRow) : Prop where
  host : control.hostIdentityRef = lease.hostIdentityRef
  operationId : control.operationId = lease.operationId
  processId : control.ownerProcessId = lease.ownerProcessId
  processStartRef : control.ownerProcessStartRef = lease.ownerProcessStartRef
  bootIdentityRef : control.ownerBootIdentityRef = lease.ownerBootIdentityRef
  acquiredAt : control.acquiredAt = lease.acquiredAt
  state : control.leaseState = lease.leaseState

theorem Paired.owned {control : ControlLeaseRow} {acquiredAt : String}
    (paired : Paired control lease) :
    control.isOwnedBy owner acquiredAt = lease.ownedBy owner acquiredAt := by
  unfold ControlLeaseRow.isOwnedBy MaintenanceLeaseRow.ownedBy
  rw [paired.operationId, paired.processId, paired.processStartRef, paired.bootIdentityRef,
    paired.acquiredAt]

/-- Both leases of a pair come into a state. -/
theorem Paired.moved {control : ControlLeaseRow} (paired : Paired control lease) (state : String) :
    Paired { control with leaseState := state } { lease with leaseState := state } :=
  { paired with state := rfl }

theorem Paired.patched {control : ControlLeaseRow}
    (paired : Paired control lease)
    (hits : p control = q lease) (moved : Paired (f control) (g lease)) :
    Paired (patch p f control) (patch q g lease) := by
  unfold patch
  rw [hits]
  split
  · exact moved
  · exact paired

/-- Every control lease is the sublease of a maintenance lease. -/
structure Together (db : Database) : Prop where
  paired : ∀ control ∈ db.controlLeases.rows, ∃ lease ∈ db.maintenanceLeases.rows,
    Paired control lease
  sole : ∀ control ∈ db.controlLeases.rows, ∀ other ∈ db.controlLeases.rows, other = control
  turns : db.turns.rows = []

theorem Together.idle (turns : db.turns.rows = []) (none : db.controlLeases.rows = []) :
    Together db :=
  ⟨by simp [none], by simp [none], turns⟩

section
variable (together : Together db)
include together

/-- The two tables of leases change together. -/
theorem Together.moves (turns : after.turns = db.turns)
    (controlChange : ControlLeaseRow → ControlLeaseRow)
    (leaseChange : MaintenanceLeaseRow → MaintenanceLeaseRow)
    (controls : after.controlLeases.rows = db.controlLeases.rows.map controlChange)
    (leases : after.maintenanceLeases.rows = db.maintenanceLeases.rows.map leaseChange)
    (keeps : ∀ control ∈ db.controlLeases.rows, ∀ lease ∈ db.maintenanceLeases.rows,
      Paired control lease → Paired (controlChange control) (leaseChange lease)) :
    Together after where
  paired := by
    rw [controls, leases, List.forall_mem_map]
    intro old there
    obtain ⟨lease, leased, paired⟩ := together.paired old there
    exact ⟨_, List.mem_map_of_mem leased, keeps old there lease leased paired⟩
  sole := by
    simp only [controls, List.forall_mem_map]
    intro old there another present
    rw [together.sole old there another present]
  turns := by
    rw [turns]
    exact together.turns

/-- The leases stay as they are. -/
theorem Together.same (turns : after.turns = db.turns)
    (controls : after.controlLeases = db.controlLeases)
    (leases : after.maintenanceLeases = db.maintenanceLeases) : Together after :=
  together.moves turns id id (by rw [controls, List.map_id]) (by rw [leases, List.map_id])
    fun _ _ _ _ paired => paired

theorem Together.begun (known : hostIdentity db = .ok host)
    (governed : Governed db) (begun : Begun codec plan owner host db after run lease) :
    Together after := by
  refine Together.idle ?_ ?_
  · rw [begun.frame]
    exact together.turns
  · have controls : after.controlLeases = db.controlLeases := by rw [begun.frame]
    rw [controls, List.eq_nil_iff_forall_not_mem]
    intro control member
    -- A sublease has a maintenance lease, and there is none on the Host.
    obtain ⟨other, leased, _⟩ := together.paired control member
    have same := (governed.ownHost other leased).symm.trans (hostIdentity_ok known)
    exact begun.unmaintained other leased (Option.some.inj same)

/-- A postcheck is begun on a Host that has no sublease yet. -/
theorem Together.postcheck (governed : Governed db)
    (leased : lease ∈ db.maintenanceLeases.rows) (onHost : lease.hostIdentityRef = host.text)
    (owned : lease.ownedBy owner acquiredAt = true) (active : lease.leaseState = "active")
    (free : ∀ control ∈ db.controlLeases.rows, control.hostIdentityRef ≠ host.text)
    (controls : after.controlLeases.rows =
      db.controlLeases.rows ++ [probeLease .native host binding probe owner acquiredAt])
    (frame : after = { db with controlLeases := after.controlLeases }) : Together after := by
  have none : db.controlLeases.rows = [] := by
    rw [List.eq_nil_iff_forall_not_mem]
    intro control member
    obtain ⟨other, there, paired⟩ := together.paired control member
    exact free control member
      (paired.host.trans ((congrArg _ (governed.sole lease leased other there)).trans onHost))
  have leases : after.maintenanceLeases = db.maintenanceLeases := by rw [frame]
  have turns : after.turns = db.turns := by rw [frame]
  rw [none, List.nil_append] at controls
  refine ⟨?_, by simp [controls], turns ▸ together.turns⟩
  rw [controls, leases]
  intro control member
  rw [List.mem_singleton.mp member]
  simp only [MaintenanceLeaseRow.ownedBy, LeaseOwner.owns, Bool.and_eq_true,
    decide_eq_true_eq] at owned
  obtain ⟨⟨⟨⟨operationId, processId⟩, startRef⟩, bootRef⟩, acquired⟩ := owned
  exact ⟨lease, leased, onHost.symm, operationId.symm, processId.symm, startRef.symm, bootRef.symm,
    acquired.symm, active.symm⟩

/-- An owner leaves both of its leases to recovery. -/
theorem Together.handedOver
    (frame : lost = { db with setupRuns := lost.setupRuns, setupActions := lost.setupActions }) :
    Together (handedOver owner acquiredAt lost) := by
  have sameControls : lost.controlLeases = db.controlLeases := by rw [frame]
  have sameLeases : lost.maintenanceLeases = db.maintenanceLeases := by rw [frame]
  have turns : (SetupTransactions.handedOver owner acquiredAt lost).turns = db.turns := by
    show lost.turns = db.turns
    rw [frame]
  refine together.moves turns (leaveControl owner acquiredAt) (leaveMaintenance owner acquiredAt)
    ?_ ?_ ?_
  · show lost.controlLeases.rows.map _ = _
    rw [sameControls]
    rfl
  · show lost.maintenanceLeases.rows.map _ = _
    rw [sameLeases]
    rfl
  · intro control _ lease _ paired
    refine paired.patched ?_ (paired.moved _)
    rw [paired.owned, paired.state]

/-- Both leases are gone. -/
theorem Together.settled {control : ControlLeaseRow} (turns : after.turns = db.turns)
    (held : control ∈ db.controlLeases.rows)
    (controls : ∀ other, other ∈ after.controlLeases.rows ↔
      other ∈ db.controlLeases.rows ∧ other ≠ control) : Together after := by
  refine Together.idle (turns ▸ together.turns) ?_
  rw [List.eq_nil_iff_forall_not_mem]
  intro other member
  obtain ⟨there, ne⟩ := (controls other).mp member
  exact ne (together.sole control held other there)

/-- A restart marks both leases. -/
theorem Together.restarted (governed : Governed db)
    (interrupted : Interrupted codec times db after) : Together (markProbeLeases after) := by
  have sameControls : after.controlLeases = db.controlLeases := by rw [interrupted.frame]
  have sameTurns : (markProbeLeases after).turns = db.turns := by
    show after.turns = db.turns
    rw [interrupted.frame]
  refine together.moves sameTurns
    (patch (fun lease => (lease.ownerKind = "provider_probe" || lease.ownerKind = "native_probe") &&
      lease.leaseState = "active") (fun lease => { lease with leaseState := "recovery_pending" }))
    (patch (fun lease => lease.leaseState = "active")
      (fun lease => { lease with leaseState := "recovery_pending" })) ?_ interrupted.leases ?_
  · show after.controlLeases.rows.map _ = _
    rw [sameControls]
  · intro control held lease leased paired
    refine paired.patched ?_ (paired.moved _)
    have native := (governed.exclusive lease leased control held paired.host).1
    simp [native, paired.state]

end

/-- Without Turns a restart has nothing else to mark. -/
theorem markRestart_idle (codec : TimeCodec) (clock : SessionId → OffsetDateTime)
    (none : db.turns.rows = []) :
    (serve codec db (.markRestartRecoveryPending clock)).2 = markProbeLeases db := by
  have idle : activeSessionIds (markProbeLeases db) = .ok [] := by
    unfold activeSessionIds
    show ((((db.turns.rows.filter _).map _).dedup).insertionSort _).mapM _ = _
    rw [none]
    rfl
  simp only [serve, markRestartRecoveryPending, idle]
  rfl

/-! ## Every call on a pair -/

/-- The operations on a maintenance lease and its sublease; no operation that has a
sublease is adopted. -/
def OnPair (db : Database) : MaintenanceCall → Prop
  | .adoptRecoveryMaintenance operationId _ =>
    ∀ control ∈ db.controlLeases.rows, control.operationId ≠ operationId
  | .beginSetupRun _ _ _ | .startSetupAction _ _ _ | .beginMaintenancePostcheck _ _ _ _
  | .finishMaintenancePostcheck _ _ _ _ _ _ | .retainLeaseRecovery _ _
  | .reconcileMaintenance _ _ _ | .releaseReconciledNativeProbe _
  | .initializeRestartRecovery _ _ => True
  | _ => False

section
variable (together : Together db)
include together

theorem Together.postcheckFinished
    (ran : finishMaintenancePostcheck codec db owner probeRef actionId verified stored now =
      .ok (reply, after)) : Together after := by
  obtain ⟨host, acquiredAt, probe, checked, run, x, text, _, _, _, recorded, outcome⟩ :=
    finishMaintenancePostcheck_ok ran
  rcases outcome with ⟨_, _, lost, marked, _, _, rfl⟩ | ⟨status, ended, control, lease, _, _, settled⟩
  · refine together.handedOver ?_
    rw [markOutcomeUnknown_frame marked, recorded.frame]
  · refine together.settled ?_ settled.held settled.controls
    obtain ⟨_, _, _, _, _, _, _, _, _, _, _, same⟩ := finishSetupRun_ok settled.finished
    rw [settled.frame, same, recorded.frame]

theorem Together.retained
    (ran : retainLeaseRecovery codec db owner now = .ok after) : Together after := by
  obtain ⟨acquiredAt, middle, _, _, marked, _, _, rfl⟩ := retainLeaseRecovery_ok ran
  refine together.handedOver ?_
  rcases marked with ⟨_, marked⟩ | ⟨_, rfl⟩
  · exact markOutcomeUnknown_frame marked
  · rfl

theorem Together.adopted
    (adopted : Adopted codec owner db after run lease x acquiredAt)
    (free : ∀ control ∈ db.controlLeases.rows, control.operationId ≠ owner.operationId.text) :
    Together after := by
  have controls : after.controlLeases = db.controlLeases := by rw [adopted.frame]
  refine together.moves (by rw [adopted.frame]) id _ (by rw [controls, List.map_id]) adopted.leases ?_
  intro control held other leased paired
  by_cases same : other = lease
  · -- The lease that is taken over has no sublease.
    have names := paired.operationId
    rw [same, adopted.operationId, adopted.runId] at names
    exact absurd names (free control held)
  · rw [if_neg same]
    exact paired

theorem Together.reconciled
    (reconciled : Reconciled codec subject now db after status run lease text change) :
    Together after := by
  have controls : after.controlLeases = db.controlLeases := by rw [reconciled.frame]
  have turns : after.turns = db.turns := by rw [reconciled.frame]
  refine ⟨?_, controls ▸ together.sole, turns ▸ together.turns⟩
  rw [controls]
  intro control held
  obtain ⟨other, leased, paired⟩ := together.paired control held
  refine ⟨other, (reconciled.leases other).mpr ⟨leased, ?_⟩, paired⟩
  rintro rfl
  have held := List.any_eq_false.mp reconciled.unheld control held
  simp [paired.operationId] at held

/-- A sublease is not released as an ordinary probe. -/
theorem Together.unreleased :
    releaseReconciledNativeProbe db probeRef ≠ .ok after := by
  intro ran
  simp only [releaseReconciledNativeProbe, deleteProbeLease, except_bind_ok, orFail_ok] at ran
  obtain ⟨leases, deleted, _⟩ := ran
  obtain ⟨control, held, hit, _⟩ := Table.exists_of_deleteOne deleted
  obtain ⟨lease, leased, paired⟩ := together.paired control held
  have foreign := List.all_eq_true.mp (Bool.and_eq_true_iff.mp hit).2 lease leased
  simp [paired.host, paired.operationId] at foreign

end

theorem serve_together (sound : Sound codec db) (together : Together db)
    (permitted : OnPair db call) : Together (serveMaintenance codec db call).2 := by
  cases call with
  | beginSetupRun version plan owner =>
    refine transact_unit_keeps Together together fun after ran => ?_
    obtain ⟨_, _, _, known, _, begun⟩ := beginSetupRun_ok ran
    exact together.begun known sound.governed begun
  | startSetupAction =>
    refine transact_unit_keeps Together together fun after ran => ?_
    have frame := (startSetupAction_moves ran).frame
    exact together.same (by rw [frame]) (by rw [frame]) (by rw [frame])
  | beginMaintenancePostcheck =>
    refine transact_unit_keeps Together together fun after ran => ?_
    obtain ⟨_, _, _, _, _, _, ⟨lease, leased, onHost, owned, active⟩, free, rfl, controls, frame⟩ :=
      beginMaintenancePostcheck_ok ran
    exact together.postcheck sound.governed leased onHost owned active free controls frame
  | finishMaintenancePostcheck =>
    exact transact_keeps Together together fun _ _ ran => together.postcheckFinished ran
  | retainLeaseRecovery => exact transact_unit_keeps Together together fun _ ran => together.retained ran
  | adoptRecoveryMaintenance operationId owner =>
    refine transact_unit_keeps Together together fun after ran => ?_
    obtain ⟨rfl, _, _, _, _, adopted⟩ := adoptRecoveryMaintenance_ok ran
    exact together.adopted adopted permitted
  | reconcileMaintenance =>
    refine transact_keeps Together together fun reply after ran => ?_
    rcases reconcileMaintenance_ok ran with ⟨_, rfl⟩ | ⟨_, _, _, _, _, _, reconciled⟩
    · exact together
    · exact together.reconciled reconciled
  | releaseReconciledNativeProbe =>
    exact transact_unit_keeps Together together fun after ran => absurd ran together.unreleased
  | initializeRestartRecovery detectedAt clock =>
    show Together (initializeRestartRecovery codec db detectedAt clock).2
    rcases restart_cases codec db detectedAt clock with same | ⟨times, marked, interrupted, same⟩
    · rw [same]
      exact together
    · have turns : marked.turns = db.turns := by rw [interrupted.frame]
      rw [same, markRestart_idle codec clock (turns ▸ together.turns)]
      exact together.restarted sound.governed interrupted
  | _ => exact permitted.elim

theorem maintained_together (maintained : MaintainedBy codec OnPair db) :
    Sound codec db ∧ Together db := by
  refine maintained_induction (fun db => Sound codec db ∧ Together db) ?_ ?_ maintained
  · intro db unmaintained
    have reached : MaintainedBy codec OnPair db := unmaintained_maintained unmaintained
    exact ⟨maintained_sound reached, .idle unmaintained.fresh.turns unmaintained.controlLeases⟩
  · rintro db call ⟨sound, together⟩ permitted
    exact ⟨serve_sound sound call, serve_together sound together permitted⟩

/-! ## Handing a pair to recovery -/

theorem markOutcomeUnknown_runs (member : run ∈ db.setupRuns.rows)
    (own : run.runId = runId) (running : run.status = "running")
    (written : codec.format time = some text) :
    ∃ after, markSetupRunOutcomeUnknownInTransaction codec db runId time = .ok after := by
  have one : db.setupRuns.rows.countP
      (fun run => run.runId = runId && run.status = "running") = 1 := by
    rw [List.countP_eq_length_filter, Table.filter_eq_singleton member (by simp [own, running])]
    · rfl
    · intro other there hit
      simp only [Bool.and_eq_true, decide_eq_true_eq] at hit
      exact Table.row_unique there member (hit.1.trans own.symm)
  unfold markSetupRunOutcomeUnknownInTransaction updateSetupRun
  simp only [except_bind_ok, formatTime_ok, orFail_ok]
  exact ⟨_, text, written, _, Table.updateOne_eq_some.mpr ⟨one, rfl⟩, rfl⟩

/-- The owner of the maintenance lease owns the whole pair. -/
theorem Together.counted (together : Together db) (governed : Governed db)
    (leased : lease ∈ db.maintenanceLeases.rows) (owns : lease.ownedBy owner acquiredAt = true)
    (active : lease.leaseState = "active") :
    countMaintenanceLeases db owner acquiredAt = 1 ∧
    countControlLeases db owner acquiredAt = db.controlLeases.rows.length ∧
    expectedControlLeases db owner.operationId.text = db.controlLeases.rows.length := by
  have only := fun other there => governed.sole lease leased other there
  refine ⟨?_, ?_, ?_⟩
  · unfold countMaintenanceLeases
    rw [List.countP_eq_length_filter, Table.filter_eq_singleton leased (by simp [owns, active])
      fun other there _ => only other there]
    rfl
  · unfold countControlLeases
    rw [List.countP_eq_length]
    intro control held
    obtain ⟨other, there, paired⟩ := together.paired control held
    rw [only other there] at paired
    simp [paired.owned, paired.state, owns, active]
  · unfold expectedControlLeases
    cases found : db.maintenanceLeases.rows.find? (·.operationId = owner.operationId.text) with
    | none =>
      have missing := List.find?_eq_none.mp found lease leased
      simp [ownedBy_operationId owns] at missing
    | some other =>
      rw [List.countP_eq_length]
      intro control held
      obtain ⟨another, there, paired⟩ := together.paired control held
      rw [only another there] at paired
      rw [only other (List.mem_of_find?_eq_some found)]
      simp [paired.host]

theorem Together.retains (together : Together db) (sound : Sound codec db)
    (leased : lease ∈ db.maintenanceLeases.rows) (owns : lease.ownedBy owner acquiredAt = true)
    (active : lease.leaseState = "active")
    (acquired : codec.format owner.acquiredAt = some acquiredAt)
    (written : codec.format now = some text) :
    ∃ after, retainLeaseRecovery codec db owner now = .ok after := by
  obtain ⟨maintenance, controls, expected⟩ :=
    together.counted sound.governed leased owns active
  obtain ⟨run, member, matched⟩ := sound.governed.matched lease leased
  have own : run.runId = owner.operationId.text := matched.runId.trans (ownedBy_operationId owns)
  have running : run.status = "running" := by
    rcases matched.state with ⟨_, running⟩ | ⟨pending, _⟩
    · exact running
    · rw [active] at pending
      simp at pending
  obtain ⟨lost, marked⟩ := markOutcomeUnknown_runs member own running written
  have frame := markOutcomeUnknown_frame marked
  have isRunning : isRunning db owner.operationId.text = true :=
    isRunning_iff.mpr ⟨run, member, own, running⟩
  have sameLeases : countMaintenanceLeases lost owner acquiredAt =
      countMaintenanceLeases db owner acquiredAt := by rw [frame]; rfl
  have sameControls : countControlLeases lost owner acquiredAt =
      countControlLeases db owner acquiredAt := by rw [frame]; rfl
  simp only [retainLeaseRecovery, loseRunningSetupRun, except_bind_ok, formatTime_ok, ensure_ok]
  refine ⟨_, acquiredAt, acquired, (), ?_, lost, ?_, (), ?_, rfl⟩
  · rw [expected]
    exact Table.length_le_one together.sole
  · rw [if_pos isRunning]
    exact marked
  · exact ⟨sameLeases.trans maintenance, sameControls.trans (controls.trans expected.symm)⟩

theorem postcheck_moves_with_maintenance (codec : TimeCodec) (db : Database)
    (maintained : MaintainedBy codec OnPair db) :
    (∀ lease ∈ db.maintenanceLeases.rows, ∀ control ∈ db.controlLeases.rows,
      control.operationId = lease.operationId →
        control.leaseState = lease.leaseState ∧
        control.ownerProcessId = lease.ownerProcessId ∧
        control.ownerProcessStartRef = lease.ownerProcessStartRef ∧
        control.ownerBootIdentityRef = lease.ownerBootIdentityRef ∧
        control.acquiredAt = lease.acquiredAt) ∧
    (∀ control ∈ db.controlLeases.rows, ∃ lease ∈ db.maintenanceLeases.rows,
      lease.operationId = control.operationId) ∧
    ∀ lease ∈ db.maintenanceLeases.rows, ∀ owner acquiredAt now text,
      lease.leaseState = "active" → codec.format owner.acquiredAt = some acquiredAt →
      lease.ownedBy owner acquiredAt = true → codec.format now = some text →
        (serveMaintenance codec db (.retainLeaseRecovery owner now)).1.isOk = true := by
  obtain ⟨sound, together⟩ := maintained_together maintained
  refine ⟨?_, ?_, ?_⟩
  · intro lease leased control held _
    obtain ⟨other, there, paired⟩ := together.paired control held
    rw [sound.governed.sole lease leased other there] at paired
    exact ⟨paired.state, paired.processId, paired.processStartRef, paired.bootIdentityRef,
      paired.acquiredAt⟩
  · intro control held
    obtain ⟨lease, leased, paired⟩ := together.paired control held
    exact ⟨lease, leased, paired.operationId.symm⟩
  · intro lease leased owner acquiredAt now text active acquired owns written
    obtain ⟨after, ran⟩ := together.retains sound leased owns active acquired written
    simp only [serveMaintenance, ran]
    rfl

/-- The sample setup with its postcheck under way. -/
def postcheckSample : List MaintenanceCall := [
  beginSample,
  .startSetupAction (sampleOwner 0) "install-test" (seconds 0),
  .beginMaintenancePostcheck ⟨"binding-test", by decide⟩ "probe-test" "install-test"
    (sampleOwner 0)]

theorem postcheck_moves_with_maintenance_begun :
    (maintain sampleCodec emptyStore postcheckSample).controlLeases.rows.length = 1 ∧
    (maintain sampleCodec emptyStore postcheckSample).maintenanceLeases.rows.length = 1 ∧
    ∀ lease ∈ (maintain sampleCodec emptyStore postcheckSample).maintenanceLeases.rows,
      ∀ control ∈ (maintain sampleCodec emptyStore postcheckSample).controlLeases.rows,
        control.operationId = lease.operationId → control.leaseState = lease.leaseState := by
  refine ⟨by decide +kernel, by decide +kernel, ?_⟩
  have maintained : MaintainedBy sampleCodec OnPair
      (maintain sampleCodec emptyStore postcheckSample) :=
    maintain_maintained (unmaintained_maintained emptyStore_unmaintained)
      ⟨trivial, trivial, trivial, trivial⟩
  intro lease leased control held same
  exact ((postcheck_moves_with_maintenance sampleCodec _ maintained).1 lease leased control held
    same).1

/-- A restart with a postcheck under way, and then an adoption: the new owner gets the
maintenance lease and not its sublease, and can no longer hand them to recovery. -/
theorem adoption_leaves_the_sublease :
    MaintainedBy sampleCodec (fun _ _ => True) (maintain sampleCodec emptyStore (postcheckSample ++ [
      .initializeRestartRecovery (seconds 1) (fun _ => seconds 1),
      .adoptRecoveryMaintenance "operation-test" (sampleOwner 2)])) ∧
    (maintain sampleCodec emptyStore (postcheckSample ++ [
      .initializeRestartRecovery (seconds 1) (fun _ => seconds 1),
      .adoptRecoveryMaintenance "operation-test" (sampleOwner 2)])).maintenanceLeases.rows.map
        (fun lease => (lease.operationId, lease.leaseState, lease.acquiredAt)) =
      [("operation-test", "active", "1970-01-01T00:00:02Z")] ∧
    (maintain sampleCodec emptyStore (postcheckSample ++ [
      .initializeRestartRecovery (seconds 1) (fun _ => seconds 1),
      .adoptRecoveryMaintenance "operation-test" (sampleOwner 2)])).controlLeases.rows.map
        (fun lease => (lease.operationId, lease.leaseState, lease.acquiredAt)) =
      [("operation-test", "recovery_pending", "1970-01-01T00:00:00Z")] ∧
    (serveMaintenance sampleCodec (maintain sampleCodec emptyStore (postcheckSample ++ [
      .initializeRestartRecovery (seconds 1) (fun _ => seconds 1),
      .adoptRecoveryMaintenance "operation-test" (sampleOwner 2)]))
        (.retainLeaseRecovery (sampleOwner 2) (seconds 3))).1.isOk = false := by
  refine ⟨?_, by decide +kernel, by decide +kernel, by decide +kernel⟩
  exact maintain_maintained (unmaintained_maintained emptyStore_unmaintained)
    ⟨trivial, trivial, trivial, trivial, trivial, trivial⟩

/-! ## Heartbeats -/

/-- Every lease of a Host on which the owner has one is the owner's, and active. -/
def Alone (db : Database) (owner : LeaseOwner) (acquiredAt : String) : Prop :=
  (∀ control ∈ db.controlLeases.rows,
    control.hostIdentityRef ∈ ownedHosts db owner acquiredAt →
      control.isOwnedBy owner acquiredAt = true ∧ control.leaseState = "active") ∧
  ∀ lease ∈ db.maintenanceLeases.rows, lease.hostIdentityRef ∈ ownedHosts db owner acquiredAt →
    lease.ownedBy owner acquiredAt = true ∧ lease.leaseState = "active"

theorem expected_iff_alone (db : Database) (owner : LeaseOwner) (acquiredAt : String) :
    countControlLeases db owner acquiredAt + countMaintenanceLeases db owner acquiredAt =
      expectedHeartbeats db owner acquiredAt ↔ Alone db owner acquiredAt := by
  have controls : ∀ control ∈ db.controlLeases.rows,
      (control.isOwnedBy owner acquiredAt && control.leaseState = "active") = true →
      decide (control.hostIdentityRef ∈ ownedHosts db owner acquiredAt) = true := by
    intro control held hit
    rw [decide_eq_true_eq]
    exact List.mem_append_left _ (List.mem_map_of_mem
      (List.mem_filter.mpr ⟨held, (Bool.and_eq_true_iff.mp hit).1⟩))
  have leases : ∀ lease ∈ db.maintenanceLeases.rows,
      (lease.ownedBy owner acquiredAt && lease.leaseState = "active") = true →
      decide (lease.hostIdentityRef ∈ ownedHosts db owner acquiredAt) = true := by
    intro lease leased hit
    rw [decide_eq_true_eq]
    exact List.mem_append_right _ (List.mem_map_of_mem
      (List.mem_filter.mpr ⟨leased, (Bool.and_eq_true_iff.mp hit).1⟩))
  have fewerControls := List.countP_mono_left controls
  have fewerLeases := List.countP_mono_left leases
  have both : countControlLeases db owner acquiredAt + countMaintenanceLeases db owner acquiredAt =
      expectedHeartbeats db owner acquiredAt ↔
      db.controlLeases.rows.countP (fun lease =>
          lease.isOwnedBy owner acquiredAt && lease.leaseState = "active") =
        db.controlLeases.rows.countP (·.hostIdentityRef ∈ ownedHosts db owner acquiredAt) ∧
      db.maintenanceLeases.rows.countP (fun lease =>
          lease.ownedBy owner acquiredAt && lease.leaseState = "active") =
        db.maintenanceLeases.rows.countP (·.hostIdentityRef ∈ ownedHosts db owner acquiredAt) := by
    unfold countControlLeases countMaintenanceLeases expectedHeartbeats
    omega
  rw [both, countP_eq_iff controls, countP_eq_iff leases]
  simp only [Alone, decide_eq_true_eq, Bool.and_eq_true]

/-- The rows of an owner are refreshed, and nothing else is changed. -/
structure Refreshed (owner : LeaseOwner) (acquiredAt heartbeatAt : String) (db after : Database) :
    Prop where
  controls : after.controlLeases.rows = db.controlLeases.rows.map fun control =>
    if control.isOwnedBy owner acquiredAt = true ∧ control.leaseState = "active"
      then { control with heartbeatAt := heartbeatAt } else control
  leases : after.maintenanceLeases.rows = db.maintenanceLeases.rows.map fun lease =>
    if lease.ownedBy owner acquiredAt = true ∧ lease.leaseState = "active"
      then { lease with heartbeatAt := heartbeatAt } else lease
  frame : after = { db with
    controlLeases := after.controlLeases
    maintenanceLeases := after.maintenanceLeases }

theorem owner_refreshes_its_leases (codec : TimeCodec) (db : Database) (owner : LeaseOwner)
    (time : OffsetDateTime) (acquiredAt heartbeatAt : String)
    (acquired : codec.format owner.acquiredAt = some acquiredAt)
    (beats : codec.format time = some heartbeatAt) :
    ((∃ changed after, serveMaintenance codec db (.refreshLeaseHeartbeat owner time) =
        (.ok (.refreshed changed), after)) ↔ Alone db owner acquiredAt) ∧
    ∀ changed after, serveMaintenance codec db (.refreshLeaseHeartbeat owner time) =
        (.ok (.refreshed changed), after) →
      changed = countControlLeases db owner acquiredAt + countMaintenanceLeases db owner acquiredAt ∧
      Refreshed owner acquiredAt heartbeatAt db after := by
  have serves : ∀ {changed after}, serveMaintenance codec db (.refreshLeaseHeartbeat owner time) =
      (.ok (.refreshed changed), after) ↔
        refreshLeaseHeartbeat codec db owner time = .ok (changed, after) := by
    intro changed after
    simp only [serveMaintenance]
    cases refreshLeaseHeartbeat codec db owner time with
    | error e => simp [transact]
    | ok result => simp [transact, Prod.ext_iff]
  constructor
  · rw [← expected_iff_alone]
    simp only [serves]
    constructor
    · rintro ⟨changed, after, ran⟩
      simp only [refreshLeaseHeartbeat, except_bind_ok, ensure_ok, formatTime_ok] at ran
      obtain ⟨_, _, written, same, _, expected, _⟩ := ran
      rw [acquired] at same
      cases same
      exact expected
    · intro expected
      simp only [refreshLeaseHeartbeat, except_bind_ok, ensure_ok, formatTime_ok]
      exact ⟨_, _, heartbeatAt, beats, acquiredAt, acquired, (), expected, rfl⟩
  · intro changed after served
    obtain ⟨beat, written, formatted, same, counted, controls, leases, frame⟩ :=
      refreshLeaseHeartbeat_ok (serves.mp served)
    rw [acquired] at same
    rw [beats] at formatted
    cases same
    cases formatted
    refine ⟨counted, ?_, ?_, frame⟩
    · rw [controls]
      refine List.map_congr_left fun control _ => ?_
      simp only [controlBeat, patch, Bool.and_eq_true, decide_eq_true_eq]
    · rw [leases]
      refine List.map_congr_left fun lease _ => ?_
      simp only [maintenanceBeat, patch, Bool.and_eq_true, decide_eq_true_eq]

/-- A probe of a desktop. -/
def probeSample (binding : DesktopBindingRef) (probeRef : String) (second : Nat) :
    MaintenanceCall :=
  .beginReadinessProbe .native binding probeRef (sampleOwner second) (seconds second)

theorem owner_refreshes_its_leases_probing :
    ∃ changed after, serveMaintenance sampleCodec
      (maintain sampleCodec emptyStore [probeSample ⟨"binding-test", by decide⟩ "probe-test" 0])
      (.refreshLeaseHeartbeat (sampleOwner 0) (seconds 1)) = (.ok (.refreshed changed), after) ∧
      changed = 1 := by
  have acquired : sampleCodec.format (sampleOwner 0).acquiredAt = some "1970-01-01T00:00:00Z" := by
    decide +kernel
  obtain ⟨succeeds, changes⟩ := owner_refreshes_its_leases sampleCodec
    (maintain sampleCodec emptyStore [probeSample ⟨"binding-test", by decide⟩ "probe-test" 0])
    (sampleOwner 0) (seconds 1) _ "1970-01-01T00:00:01Z" acquired (by decide +kernel)
  obtain ⟨changed, after, served⟩ := succeeds.mpr (by unfold Alone; decide +kernel)
  refine ⟨changed, after, served, ?_⟩
  rw [(changes changed after served).1]
  decide +kernel

/-- Two desktops are probed at a time. Neither owner can refresh its lease. -/
theorem second_desktop_stops_the_heartbeat :
    MaintainedBy sampleCodec (fun _ _ => True) (maintain sampleCodec emptyStore [
      probeSample ⟨"binding-test", by decide⟩ "probe-test" 0,
      probeSample ⟨"binding-other", by decide⟩ "probe-other" 1]) ∧
    (maintain sampleCodec emptyStore [
      probeSample ⟨"binding-test", by decide⟩ "probe-test" 0,
      probeSample ⟨"binding-other", by decide⟩ "probe-other" 1]).controlLeases.rows.map
        (fun lease => (lease.desktopBindingRef, lease.leaseState, lease.acquiredAt)) =
      [("binding-test", "active", "1970-01-01T00:00:00Z"),
        ("binding-other", "active", "1970-01-01T00:00:01Z")] ∧
    ∀ owner ∈ [sampleOwner 0, sampleOwner 1],
      (serveMaintenance sampleCodec (maintain sampleCodec emptyStore [
        probeSample ⟨"binding-test", by decide⟩ "probe-test" 0,
        probeSample ⟨"binding-other", by decide⟩ "probe-other" 1])
          (.refreshLeaseHeartbeat owner (seconds 2))).1.isOk = false := by
  refine ⟨?_, by decide +kernel, by decide +kernel⟩
  exact maintain_maintained (unmaintained_maintained emptyStore_unmaintained)
    ⟨trivial, trivial, trivial⟩

end Satelle.LeaseOwners
